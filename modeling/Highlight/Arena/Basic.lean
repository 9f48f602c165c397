import Highlight.Arena.RuleSet
import Highlight.Keyword.Table

/-!
# Arenas

A compiled language is an arena: a numbered list of compiled modes that refer to one another by
number. Nothing in it changes after it has been made.

* `ScopeEmit` -- how the text of a delimiter is shown;
* `ArenaMode` -- a compiled mode;
* `Arena` -- a compiled language;
* `Arena.isValidStack` -- whether a list of mode numbers can be the modes open at some point.
-/

namespace Highlight.Arena

open Highlight.Grammar (Hook SubLanguage)

/-- How the text of a delimiter is shown: under one label, or each group under its own. -/
inductive ScopeEmit where
  | wrap (label : String)
  | parts (labels : Dictionary Nat (Option String))

/-- The keywords of a mode, and the pattern that cuts words out of its text. -/
structure ModeKeywords where
  table : Keyword.Table
  pattern : String
  regex : Regex

/-- A compiled mode. -/
structure ArenaMode where
  scope : Option String
  beginScope : Option ScopeEmit
  endScope : Option ScopeEmit
  /-- The pattern of its beginning; empty for the root. -/
  beginSource : String
  /-- The pattern of its own end, and what it means. -/
  endSource : Option String
  endRegex : Option Regex
  /-- The pattern of all that ends it: its own end, and the ends of the modes that it ends with. -/
  terminator : String
  illegal : Option String
  keywords : Option ModeKeywords
  relevance : Nat
  contains : List Nat
  starts : Option Nat
  endsWithParent : Bool
  endsParent : Bool
  excludeBegin : Bool
  excludeEnd : Bool
  returnBegin : Bool
  returnEnd : Bool
  skip : Bool
  subLanguage : Option SubLanguage
  /-- A beginning right after a dot does not count. -/
  skipAfterDot : Bool
  onBegin : Option Hook
  onEnd : Option Hook
  rules : RuleSet

/-- A mode that reads nothing. -/
def ArenaMode.blank : ArenaMode where
  scope := none
  beginScope := none
  endScope := none
  beginSource := ""
  endSource := none
  endRegex := none
  terminator := ""
  illegal := none
  keywords := none
  relevance := 0
  contains := []
  starts := none
  endsWithParent := false
  endsParent := false
  excludeBegin := false
  excludeEnd := false
  returnBegin := false
  returnEnd := false
  skip := false
  subLanguage := none
  skipAfterDot := false
  onBegin := none
  onEnd := none
  rules := .empty

instance : Inhabited ArenaMode := ⟨.blank⟩

/-- The label that is shown for a mode without one. -/
def unnamed : String := "<unnamed>"

/-- The label under which a fault shows a mode. -/
def ArenaMode.shownLabel (m : ArenaMode) : String := m.scope.getD unnamed

/-- The names of the flags that a mode has set. -/
def ArenaMode.flags (m : ArenaMode) : List String :=
  [("endsWithParent", m.endsWithParent), ("endsParent", m.endsParent),
   ("excludeBegin", m.excludeBegin), ("excludeEnd", m.excludeEnd), ("returnBegin", m.returnBegin),
   ("returnEnd", m.returnEnd), ("skip", m.skip)].filterMap fun (name, isSet) =>
    if isSet then some name else none

end Arena

/-- A compiled language. -/
structure Arena where
  name : String
  aliases : List String
  caseInsensitive : Bool
  disableAutodetect : Bool
  supersetOf : Option String
  classNameAliases : Dictionary String String
  modes : Array Arena.ArenaMode
  root : Nat

namespace Arena

/-- The mode with a number. -/
def mode (a : Arena) (id : Nat) : ArenaMode := a.modes.getD id .blank

/-- What a label is called in the output. -/
def scopeAlias (a : Arena) (scope : String) : String := (a.classNameAliases.get? scope).getD scope

/-- Whether a list of mode numbers can be the modes open at some point: the root, then any modes of
    the language. -/
def isValidStack (a : Arena) (stack : List Nat) : Bool :=
  stack.head? == some a.root && stack.all (· < a.modes.size)

end Arena

end Highlight
