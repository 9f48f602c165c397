import Highlight.Proofs.Text.Slices
import Highlight.Token.Tree
import Mathlib.Data.List.Forall2

/-!
# Texts and trees in another guise

Two texts can be the same in all that counts of their characters, and two trees the same but for
what their labels are called.

* `Guise`, `Guise.labelled` -- what counts of a character, and what a label is called;
* `Guise.SameString`, `Guise.SameText` -- texts of which the same counts;
* `Guise.SameEvent` -- events that tell the same;
* `Node.recast`, `TokenTree.recast` -- a tree with other letters and other labels;
* `recast_apply`, `recast_root` -- events that tell the same build trees that are the same;
* `Placed`, `Node.placed` -- the scopes and texts of a tree by the bytes that they take up;
* `placed_recast` -- other letters of the same sizes leave them in place.
-/

namespace Highlight.Token

/-! ## 1. Texts -/

/-- What counts of a character, and what a label is called. What counts of a character takes up as
    many bytes, and shows whether it is a dot. -/
structure Guise where
  letter : Char → Char
  label : String → String
  size : ∀ c, (letter c).utf8Size = c.utf8Size
  dot : ∀ c, letter c = '.' ↔ c = '.'

/-- Everything counts, and labels keep their names. -/
def Guise.plain : Guise where
  letter := id
  label := id
  size _ := rfl
  dot _ := Iff.rfl

/-- Everything counts, and labels have other names. -/
def Guise.labelled (label : String → String) : Guise := { Guise.plain with label }

namespace Guise

variable {G : Guise} {cs cs' ds ds' : List Char} {s s' u u' : String} {t t' : Text}

/-- The same counts of two lists of characters. -/
def SameChars (G : Guise) (cs cs' : List Char) : Prop := cs'.map G.letter = cs.map G.letter

/-- The same counts of two strings. -/
def SameString (G : Guise) (s s' : String) : Prop := G.SameChars s.toList s'.toList

/-- The same counts of two texts. -/
def SameText (G : Guise) (t t' : Text) : Prop := G.SameChars t.toList t'.toList

theorem SameString.refl (s : String) : G.SameString s s := rfl

theorem SameString.append (hs : G.SameString s s') (hu : G.SameString u u') :
    G.SameString (s ++ u) (s' ++ u') := by
  unfold SameString SameChars at *
  rw [String.toList_append, String.toList_append, List.map_append, List.map_append, hs, hu]

theorem SameString.isEmpty (h : G.SameString s s') : s'.isEmpty = s.isEmpty := by
  have hl : s'.toList.length = s.toList.length := by simpa using congrArg List.length h
  rw [Bool.eq_iff_iff, String.isEmpty_iff, String.isEmpty_iff, ← String.toList_eq_nil_iff,
    ← String.toList_eq_nil_iff, ← List.length_eq_zero_iff, ← List.length_eq_zero_iff, hl]

theorem SameString.ofString (h : G.SameString s s') :
    G.SameText (Text.ofString s) (Text.ofString s') := h

theorem SameText.size (h : G.SameText t t') : t'.size = t.size := by
  simpa using congrArg List.length h

theorem SameText.slice (h : G.SameText t t') (i j : Nat) :
    G.SameString (t.slice i j) (t'.slice i j) := by
  unfold SameString SameChars
  rw [Text.toList_slice, Text.toList_slice, List.map_drop, List.map_drop, List.map_take,
    List.map_take, show t'.toList.map G.letter = _ from h]

/-- What counts of a character takes up as many bytes. -/
theorem byteOffsetFrom_map (G : Guise) : ∀ (cs : List Char) (i : Nat),
    Text.byteOffsetFrom (cs.map G.letter) i = Text.byteOffsetFrom cs i
  | [], _ => rfl
  | _ :: _, 0 => rfl
  | c :: cs, i + 1 => by
      rw [List.map_cons, Text.byteOffsetFrom, Text.byteOffsetFrom, byteOffsetFrom_map G cs i,
        G.size]

theorem SameText.byteOffset (h : G.SameText t t') (i : Nat) : t'.byteOffset i = t.byteOffset i := by
  unfold Text.byteOffset
  rw [← byteOffsetFrom_map G, ← byteOffsetFrom_map G t.toList, show t'.toList.map G.letter = _ from h]

/-- A dot stands at the same places. -/
theorem SameText.isDot (h : G.SameText t t') (i : Nat) :
    (t'[i]? == some '.') = (t[i]? == some '.') := by
  have hdot : ∀ c : Option Char, (c == some '.') = (c.map G.letter == some '.') := by
    intro c
    cases c with
    | none => rfl
    | some c =>
      rw [Bool.eq_iff_iff]
      simp [G.dot]
  have hsame : (t'[i]?).map G.letter = (t[i]?).map G.letter := by
    simpa using congrArg (·[i]?) h
  rw [hdot, hdot t[i]?, hsame]

section Plain

variable (hplain : ∀ c, G.letter c = c)

include hplain

theorem SameString.eq (h : G.SameString s s') : s' = s := by
  have hid : G.letter = id := funext hplain
  unfold SameString SameChars at h
  rw [hid, List.map_id, List.map_id] at h
  exact String.toList_injective h

theorem SameText.eq (h : G.SameText t t') : t' = t := by
  have hid : G.letter = id := funext hplain
  unfold SameText SameChars at h
  rw [hid, List.map_id, List.map_id] at h
  exact Array.toList_inj.mp h

end Plain

/-! ## 2. Events -/

/-- **Two events tell the same.** A nested run has labels of its own, so it is the same only where
    labels keep their names. -/
inductive SameEvent (G : Guise) : Event → Event → Prop
  | text {s s' : String} : G.SameString s s' → SameEvent G (.text s) (.text s')
  | opening (scope : String) : SameEvent G (.opening scope) (.opening (G.label scope))
  | closing : SameEvent G .closing .closing
  | nested (h : ∀ scope, G.label scope = scope) (language : Option String) (events : List Event) :
      SameEvent G (.nested language events) (.nested language events)
  | finish : SameEvent G .finish .finish

/-- Events that tell the same, one by one. -/
abbrev SameEvents (G : Guise) : List Event → List Event → Prop := List.Forall₂ G.SameEvent

theorem SameEvents.eq (hletter : ∀ c, G.letter c = c) (hlabel : ∀ scope, G.label scope = scope)
    {es es' : List Event} (h : G.SameEvents es es') : es' = es := by
  induction h with
  | nil => rfl
  | @cons e e' es es' he _ ih =>
    rw [ih]
    congr 1
    cases he with
    | text hs => rw [hs.eq hletter]
    | opening scope => rw [hlabel]
    | closing => rfl
    | nested _ language events => rfl
    | finish => rfl

end Guise

/-! ## 3. Trees -/

/-- A string with other letters. -/
def recastString (letter : Char → Char) (s : String) : String := String.ofList (s.toList.map letter)

mutual

/-- A node with other letters and other labels. -/
def Node.recast (letter : Char → Char) (label : String → String) : Node → Node
  | .text s => .text (recastString letter s)
  | .scope name children => .scope (name.map label) (recastNodes letter label children)

/-- Nodes with other letters and other labels, in order. -/
def recastNodes (letter : Char → Char) (label : String → String) : List Node → List Node
  | [] => []
  | n :: ns => n.recast letter label :: recastNodes letter label ns

end

/-- A tree under construction with other letters and other labels. -/
def TokenTree.recast (letter : Char → Char) (label : String → String) (t : TokenTree) : TokenTree :=
  ⟨recastNodes letter label t.top,
   t.opened.map fun s => ⟨label s.label, recastNodes letter label s.children⟩⟩

section Recast

variable (letter : Char → Char) (label : String → String)

theorem recastNodes_eq_map (ns : List Node) :
    recastNodes letter label ns = ns.map (Node.recast letter label) := by
  induction ns with
  | nil => rfl
  | cons n ns ih => rw [recastNodes, ih, List.map_cons]

theorem recastString_append (s u : String) :
    recastString letter (s ++ u) = recastString letter s ++ recastString letter u := by
  unfold recastString
  rw [String.toList_append, List.map_append, String.ofList_append]

theorem recastNodes_pushNode (n : Node) (ns : List Node) :
    recastNodes letter label (pushNode n ns) =
      pushNode (n.recast letter label) (recastNodes letter label ns) := by
  cases n with
  | scope name children => simp only [pushNode, recastNodes, Node.recast]
  | text s =>
    cases ns with
    | nil => simp only [pushNode, recastNodes, Node.recast]
    | cons last rest =>
      cases last with
      | scope name children => simp only [pushNode, recastNodes, Node.recast]
      | text u => simp only [pushNode, recastNodes, Node.recast, recastString_append]

namespace TokenTree

theorem recast_push (t : TokenTree) (n : Node) :
    (t.push n).recast letter label = (t.recast letter label).push (n.recast letter label) := by
  obtain ⟨top, opened⟩ := t
  cases opened with
  | nil => simp only [push, recast, List.map_nil, recastNodes_pushNode]
  | cons s rest => simp only [push, recast, List.map_cons, recastNodes_pushNode]

theorem recast_addText (t : TokenTree) (s : String) :
    (t.addText s).recast letter label = (t.recast letter label).addText (recastString letter s) := by
  have hempty : (recastString letter s).isEmpty = s.isEmpty := by
    rw [Bool.eq_iff_iff, String.isEmpty_iff, String.isEmpty_iff, ← String.toList_eq_nil_iff,
      ← String.toList_eq_nil_iff, recastString, String.toList_ofList, List.map_eq_nil_iff]
  unfold addText
  rw [hempty]
  split
  · rfl
  · exact recast_push letter label t _

theorem recast_openScope (t : TokenTree) (scope : String) :
    (t.openScope scope).recast letter label =
      (t.recast letter label).openScope (label scope) := by
  simp only [openScope, recast, List.map_cons, recastNodes]

theorem recast_closeScope (t : TokenTree) :
    t.closeScope.recast letter label = (t.recast letter label).closeScope := by
  obtain ⟨top, opened⟩ := t
  cases opened with
  | nil => rfl
  | cons s rest =>
    show (push ⟨top, rest⟩ (.scope s.label s.children.reverse)).recast letter label = _
    rw [recast_push, Node.recast, recastNodes_eq_map, List.map_reverse, ← recastNodes_eq_map]
    rfl

theorem recast_closeAll (n : Nat) (t : TokenTree) :
    (closeAll n t).recast letter label = closeAll n (t.recast letter label) := by
  induction n generalizing t with
  | zero => rfl
  | succ n ih => rw [closeAll, ih, recast_closeScope, closeAll]

theorem recast_finish (t : TokenTree) :
    t.finish.recast letter label = (t.recast letter label).finish := by
  unfold finish
  rw [recast_closeAll]
  simp only [recast, List.length_map]

end TokenTree

end Recast

namespace Guise

variable {G : Guise} {t t' : TokenTree} {e e' : Event} {es es' : List Event}

/-- **Two trees under construction are the same**, up to what counts of their letters, and with the
    labels of the second. -/
def SameTree (G : Guise) (t t' : TokenTree) : Prop :=
  t'.recast G.letter id = t.recast G.letter G.label

/-- An event that tells the same adds the same. -/
theorem sameTree_apply (ht : G.SameTree t t') (he : G.SameEvent e e') :
    G.SameTree (t.apply e) (t'.apply e') := by
  unfold SameTree at *
  cases he with
  | @text s s' hs =>
    have hsame : recastString G.letter s' = recastString G.letter s := congrArg String.ofList hs
    rw [TokenTree.apply, TokenTree.apply, TokenTree.recast_addText, TokenTree.recast_addText, ht,
      hsame]
  | opening scope =>
    rw [TokenTree.apply, TokenTree.apply, TokenTree.recast_openScope, TokenTree.recast_openScope,
      ht]
    rfl
  | closing =>
    rw [TokenTree.apply, TokenTree.apply, TokenTree.recast_closeScope,
      TokenTree.recast_closeScope, ht]
  | nested hlabel language events =>
    have hid : G.label = id := funext hlabel
    rw [hid] at ht ⊢
    rw [TokenTree.apply, TokenTree.apply, TokenTree.splice, TokenTree.splice,
      TokenTree.recast_push, TokenTree.recast_push, ht]
  | finish =>
    rw [TokenTree.apply, TokenTree.apply, TokenTree.recast_finish, TokenTree.recast_finish, ht]

theorem sameTree_applyAll (ht : G.SameTree t t') (h : G.SameEvents es es') :
    G.SameTree (TokenTree.applyAll t es) (TokenTree.applyAll t' es') := by
  induction h generalizing t t' with
  | nil => exact ht
  | cons he _ ih =>
    rw [TokenTree.applyAll, TokenTree.applyAll]
    exact ih (sameTree_apply ht he)

/-- **Events that tell the same build trees that are the same.** -/
theorem recast_root (h : G.SameEvents es es') :
    (TokenTree.ofEvents es').root.recast G.letter id =
      (TokenTree.ofEvents es).root.recast G.letter G.label := by
  have ht : G.SameTree (TokenTree.ofEvents es) (TokenTree.ofEvents es') :=
    sameTree_applyAll rfl h
  have hroot : ∀ (label : String → String) (t : TokenTree),
      t.root.recast G.letter label = (t.recast G.letter label).root := by
    intro label t
    simp only [TokenTree.root, TokenTree.children, TokenTree.recast, Node.recast,
      recastNodes_eq_map, List.map_reverse, Option.map_none]
  rw [hroot, hroot, show (TokenTree.ofEvents es').recast G.letter id = _ from ht]

end Guise

mutual

/-- With the same letters and the same labels a node is the same. -/
theorem Node.recast_id : ∀ n : Node, n.recast id id = n
  | .text s => by rw [Node.recast, recastString, List.map_id, String.ofList_toList]
  | .scope name children => by rw [Node.recast, recastNodes_id children, Option.map_id_fun, id]

theorem recastNodes_id : ∀ ns : List Node, recastNodes id id ns = ns
  | [] => by rw [recastNodes]
  | n :: ns => by rw [recastNodes, n.recast_id, recastNodes_id ns]

end

/-! ## 4. What a tree takes up -/

/-- A text or a scope by the bytes that it takes up: where it begins, and where it ends. -/
inductive Placed where
  | text (start stop : Nat)
  | scope (label : Option String) (start stop : Nat) (children : List Placed)

mutual

/-- A node by the bytes that it takes up, if it begins at `start`. -/
def Node.placed (start : Nat) : Node → Placed
  | .text s => .text start (start + s.utf8ByteSize)
  | .scope label children =>
    .scope label start (start + (nodesText children).utf8ByteSize) (placedNodes start children)

/-- Nodes by the bytes that they take up, one after another. -/
def placedNodes (start : Nat) : List Node → List Placed
  | [] => []
  | n :: ns => n.placed start :: placedNodes (start + n.textOf.utf8ByteSize) ns

end

section Placed

variable {letter : Char → Char}

theorem byteSize_recastString (hsize : ∀ c, (letter c).utf8Size = c.utf8Size) (s : String) :
    (recastString letter s).utf8ByteSize = s.utf8ByteSize := by
  have hlist : ∀ cs : List Char,
      (String.ofList (cs.map letter)).utf8ByteSize = (String.ofList cs).utf8ByteSize := by
    intro cs
    induction cs with
    | nil => rfl
    | cons c cs ih =>
      rw [List.map_cons, String.ofList_cons, String.ofList_cons, String.utf8ByteSize_append,
        String.utf8ByteSize_append, ih, String.utf8ByteSize_singleton,
        String.utf8ByteSize_singleton, hsize]
  rw [recastString, hlist, String.ofList_toList]

mutual

theorem byteSize_textOf_recast (hsize : ∀ c, (letter c).utf8Size = c.utf8Size)
    (label : String → String) : ∀ n : Node,
      (n.recast letter label).textOf.utf8ByteSize = n.textOf.utf8ByteSize
  | .text s => by rw [Node.recast, Node.textOf, Node.textOf, byteSize_recastString hsize]
  | .scope name children => by
      rw [Node.recast, Node.textOf, Node.textOf, byteSize_nodesText_recast hsize label children]

theorem byteSize_nodesText_recast (hsize : ∀ c, (letter c).utf8Size = c.utf8Size)
    (label : String → String) : ∀ ns : List Node,
      (nodesText (recastNodes letter label ns)).utf8ByteSize = (nodesText ns).utf8ByteSize
  | [] => by rw [recastNodes]
  | n :: ns => by
      rw [recastNodes, nodesText, nodesText, String.utf8ByteSize_append,
        String.utf8ByteSize_append, byteSize_textOf_recast hsize label n,
        byteSize_nodesText_recast hsize label ns]

end

mutual

/-- **Letters of the same sizes leave everything in place.** -/
theorem placed_recast (hsize : ∀ c, (letter c).utf8Size = c.utf8Size) (start : Nat) :
    ∀ n : Node, (n.recast letter id).placed start = n.placed start
  | .text s => by rw [Node.recast, Node.placed, Node.placed, byteSize_recastString hsize]
  | .scope name children => by
      rw [Node.recast, Node.placed, Node.placed, byteSize_nodesText_recast hsize,
        placedNodes_recast hsize start children, Option.map_id_fun, id]

theorem placedNodes_recast (hsize : ∀ c, (letter c).utf8Size = c.utf8Size) (start : Nat) :
    ∀ ns : List Node, placedNodes start (recastNodes letter id ns) = placedNodes start ns
  | [] => by rw [recastNodes]
  | n :: ns => by
      rw [recastNodes, placedNodes, placedNodes, placed_recast hsize start n,
        byteSize_textOf_recast hsize, placedNodes_recast hsize _ ns]

end

end Placed

end Highlight.Token
