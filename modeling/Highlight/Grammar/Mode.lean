import Highlight.Grammar.Hook

/-!
# Modes

A grammar is a tree of modes. A mode says where it begins and ends, what its text is called, and
which modes can begin inside it. Every field can be left unset, so that one mode can be laid over
another.

* `Source`, `Scope`, `WordList`, `Keywords`, `SubLanguage` -- the values that fields hold;
* `Identity`, `Shared`, `Contained` -- modes inside modes. A mode that several others share keeps
  one identity, by which the compiler knows it again;
* `Mode`, `Mode.inherit`, `Mode.dependsOnParent` -- a mode, and one laid over another.
-/

namespace Highlight.Grammar

/-! ## 1. Values of fields -/

/-- A pattern, or several to be read one after another. -/
inductive Source where
  | single (pattern : String)
  | sequence (patterns : List String)
  deriving DecidableEq, Repr

/-- What a stretch of text is called: by one label, or by one for each group of the pattern that
    read it. A group without a label is shown as plain text. -/
inductive Scope where
  | single (label : String)
  | groups (labels : Dictionary Nat (Option String))

/-- Words, in one text or one by one. -/
inductive WordList where
  | words (text : String)
  | list (words : List String)
  deriving DecidableEq, Repr

/-- The keywords of a mode: words that are all called `keyword`, or words by category. -/
inductive Keywords where
  | words (text : String)
  | list (words : List String)
  | categories (lists : Dictionary String WordList)

/-- The category under which the pattern of the words stands. -/
def patternKey : String := "$pattern"

/-- The keywords with `pattern` as the pattern of their words. -/
def Keywords.withPattern (k : Keywords) (pattern : String) : Keywords :=
  let lists : Dictionary String WordList := match k with
    | .words text => Dictionary.empty.insert "keyword" (.words text)
    | .list ws => Dictionary.empty.insert "keyword" (.list ws)
    | .categories lists => lists
  .categories (lists.insert patternKey (.words pattern))

/-- Which language the text of a mode is handed to. -/
inductive SubLanguage where
  | single (name : String)
  /-- The one of these that fits best; of all languages when there are none. -/
  | list (names : List String)
  | any
  deriving DecidableEq, Repr

/-! ## 2. Modes inside modes -/

/-- What tells a mode from every other one in a grammar: the way to the place where it is
    written. -/
abbrev Identity := List (String × Nat)

/-- A mode, or what stands for one, with its identity. -/
structure Shared (α : Type) where
  id : Identity
  value : α

/-- What a mode can contain. -/
inductive Contained (α : Type) where
  /-- The mode itself. -/
  | self
  /-- A mode of the repository. -/
  | named (name : String)
  /-- A mode written in place. -/
  | mode (m : Shared α)

/-! ## 3. Modes -/

/-- A mode as a grammar writes it. -/
structure Mode where
  scope : Option Scope := none
  /-- An older spelling of `scope`. -/
  className : Option String := none
  beginPattern : Option Source := none
  /-- A beginning without an end. -/
  matchPattern : Option Source := none
  endPattern : Option Source := none
  beginScope : Option Scope := none
  endScope : Option Scope := none
  /-- The mode begins with one of these words. -/
  beginKeywords : Option String := none
  /-- What comes before the mode begins. -/
  beforeMatch : Option String := none
  keywords : Option Keywords := none
  contains : Option (List (Contained Mode)) := none
  variants : Option (List Mode) := none
  /-- The mode that begins where this one ends. -/
  starts : Option (Shared Mode) := none
  relevance : Option Nat := none
  illegal : Option Source := none
  endsWithParent : Option Bool := none
  endsParent : Option Bool := none
  excludeBegin : Option Bool := none
  excludeEnd : Option Bool := none
  returnBegin : Option Bool := none
  returnEnd : Option Bool := none
  skip : Option Bool := none
  subLanguage : Option SubLanguage := none
  onBegin : Option Hook := none
  onEnd : Option Hook := none

instance : Inhabited Mode := ⟨{}⟩

namespace Mode

/-- A mode with every field that `upper` sets replaced. -/
def inherit (base upper : Mode) : Mode where
  scope := upper.scope <|> base.scope
  className := upper.className <|> base.className
  beginPattern := upper.beginPattern <|> base.beginPattern
  matchPattern := upper.matchPattern <|> base.matchPattern
  endPattern := upper.endPattern <|> base.endPattern
  beginScope := upper.beginScope <|> base.beginScope
  endScope := upper.endScope <|> base.endScope
  beginKeywords := upper.beginKeywords <|> base.beginKeywords
  beforeMatch := upper.beforeMatch <|> base.beforeMatch
  keywords := upper.keywords <|> base.keywords
  contains := upper.contains <|> base.contains
  variants := upper.variants <|> base.variants
  starts := upper.starts <|> base.starts
  relevance := upper.relevance <|> base.relevance
  illegal := upper.illegal <|> base.illegal
  endsWithParent := upper.endsWithParent <|> base.endsWithParent
  endsParent := upper.endsParent <|> base.endsParent
  excludeBegin := upper.excludeBegin <|> base.excludeBegin
  excludeEnd := upper.excludeEnd <|> base.excludeEnd
  returnBegin := upper.returnBegin <|> base.returnBegin
  returnEnd := upper.returnEnd <|> base.returnEnd
  skip := upper.skip <|> base.skip
  subLanguage := upper.subLanguage <|> base.subLanguage
  onBegin := upper.onBegin <|> base.onBegin
  onEnd := upper.onEnd <|> base.onEnd

/-- Whether the way a mode ends depends on the mode around it: it ends with its parent, or a mode
    that it starts does. -/
def dependsOnParent : Mode → Bool
  | { endsWithParent, starts, .. } =>
    endsWithParent.getD false ||
      match starts with
      | some ⟨_, next⟩ => next.dependsOnParent
      | none => false

/-- Whether a mode contains itself. -/
def containsSelf (m : Mode) : Bool :=
  (m.contains.getD []).any fun
    | .self => true
    | _ => false

end Mode

end Highlight.Grammar
