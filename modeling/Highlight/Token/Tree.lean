import Highlight.Token.Event
import Highlight.Token.Html

/-!
# Token trees

Events build a tree: a scope is a node, what is told while it is open are its children, and texts
that follow each other directly are one text.

* `Node` -- a text, or a scope with its children;
* `TokenTree` -- a tree under construction, with the scopes that are open;
* `TokenTree.ofEvents` -- the tree that events build;
* `TokenTree.toHtml` -- the tree as HTML.
-/

namespace Highlight.Token

/-! ## 1. Nodes -/

/-- A node of a tree. The root has no label, nor has a nested run in no language. -/
inductive Node where
  | text (s : String)
  | scope (label : Option String) (children : List Node)

mutual

/-- The text under a node. -/
def Node.textOf : Node → String
  | .text s => s
  | .scope _ children => nodesText children

/-- The text under nodes, in order. -/
def nodesText : List Node → String
  | [] => ""
  | n :: ns => n.textOf ++ nodesText ns

end

mutual

/-- A node as HTML; `lead` goes before class names. -/
def Node.render (lead : String) : Node → String
  | .text s => Html.escape s
  | .scope none children => renderNodes lead children
  | .scope (some label) children =>
    "<span class=\"" ++ Html.cssClass label lead ++ "\">" ++ renderNodes lead children ++ "</span>"

/-- Nodes as HTML, in order. -/
def renderNodes (lead : String) : List Node → String
  | [] => ""
  | n :: ns => n.render lead ++ renderNodes lead ns

end

/-! ## 2. Trees under construction -/

/-- A scope that is open: its label, and its children so far, the last one first. -/
structure OpenScope where
  label : String
  children : List Node

/-- A tree under construction: the children of its root, the last one first, and the scopes that
    are open, the innermost first. -/
structure TokenTree where
  top : List Node
  opened : List OpenScope

/-- Children with one more; a text joins a text right before it. -/
def pushNode (n : Node) (children : List Node) : List Node :=
  match n, children with
  | .text s, .text last :: rest => .text (last ++ s) :: rest
  | n, children => n :: children

namespace TokenTree

/-- The tree without any node. -/
def empty : TokenTree := ⟨[], []⟩

instance : Inhabited TokenTree := ⟨.empty⟩

/-- The tree with a node at the end of the innermost open scope. -/
def push (t : TokenTree) (n : Node) : TokenTree :=
  match t.opened with
  | [] => { t with top := pushNode n t.top }
  | s :: rest => { t with opened := { s with children := pushNode n s.children } :: rest }

/-- The tree with more text. -/
def addText (t : TokenTree) (s : String) : TokenTree := if s.isEmpty then t else t.push (.text s)

/-- The tree with one more open scope. -/
def openScope (t : TokenTree) (label : String) : TokenTree :=
  { t with opened := ⟨label, []⟩ :: t.opened }

/-- The tree with the innermost scope closed; without an open scope nothing happens. -/
def closeScope (t : TokenTree) : TokenTree :=
  match t.opened with
  | [] => t
  | s :: rest => ({ t with opened := rest } : TokenTree).push (.scope s.label s.children.reverse)

/-- The tree with all scopes closed, given how many are open. -/
def closeAll : Nat → TokenTree → TokenTree
  | 0, t => t
  | n + 1, t => closeAll n t.closeScope

/-- The tree with all scopes closed. -/
def finish (t : TokenTree) : TokenTree := closeAll t.opened.length t

/-- The children of the root. Scopes that are open are not among them yet. -/
def children (t : TokenTree) : List Node := t.top.reverse

/-- The root. -/
def root (t : TokenTree) : Node := .scope none t.children

/-- How many scopes are open. -/
def depth (t : TokenTree) : Nat := t.opened.length

/-- The label of a nested run. -/
def languageLabel (language : String) : String := "language:" ++ language

/-- The tree with a whole other tree as one node, labelled with its language. -/
def splice (t other : TokenTree) (language : Option String) : TokenTree :=
  t.push (.scope (language.map languageLabel) other.finish.children)

mutual

/-- The tree after one more event. -/
def apply (t : TokenTree) : Event → TokenTree
  | .text s => t.addText s
  | .opening scope => t.openScope scope
  | .closing => t.closeScope
  | .nested language events => t.splice (applyAll .empty events) language
  | .finish => t.finish

/-- The tree after more events. -/
def applyAll (t : TokenTree) : List Event → TokenTree
  | [] => t
  | e :: es => applyAll (t.apply e) es

end

/-- The tree that events build. -/
def ofEvents (events : List Event) : TokenTree := applyAll .empty events

/-- The tree as HTML. -/
def toHtml (t : TokenTree) (lead : String) : String := t.root.render lead

end TokenTree

end Highlight.Token
