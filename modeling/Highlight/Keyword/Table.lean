import Highlight.Fault
import Highlight.Grammar.Mode
import Highlight.Text.LowerCase
import Highlight.Text.Words

/-!
# Keyword tables

A mode declares its keywords by category; a run looks words up. In between stands a table.

* `Keyword.Entry`, `Keyword.Table` -- what is known of a word, and all words of a mode;
* `Keyword.declarations` -- the words of a declaration with their categories, in order;
* `Table.compile` -- the table of a declaration. A word declared twice counts as declared last;
* `Table.find?` -- looking a word up.

A word can carry its relevance after a bar. Without one it is worth one, and nothing if it is a
word of plain prose.
-/

namespace Highlight.Keyword

open Highlight.Grammar (Keywords WordList patternKey)

/-! ## 1. Declarations -/

/-- The category of keywords that have no other. -/
def defaultScope : String := "keyword"

/-- The pattern of words where a mode names none. -/
def defaultPattern : String := "\\w+"

/-- The words of a list. -/
def wordsOf : WordList → List String
  | .words text => Text.words text
  | .list words => words

/-- The words of a declaration with their categories, in order. -/
def declarations : Keywords → List (String × String)
  | .words text => (Text.words text).map (defaultScope, ·)
  | .list words => words.map (defaultScope, ·)
  | .categories lists =>
    (lists.entries.filter (·.1 != patternKey)).flatMap fun (scope, list) =>
      (wordsOf list).map (scope, ·)

/-- The pattern that a declaration names for its words. -/
def pattern? : Keywords → Option String
  | .categories lists =>
    match lists.get? patternKey with
    | some (.words pattern) => some pattern
    | some (.list patterns) => patterns.head?
    | none => none
  | _ => none

/-! ## 2. Relevance -/

/-- Words of plain prose, which say little about a language. -/
def commonWords : List String :=
  ["of", "and", "for", "in", "not", "or", "if", "then", "parent", "list", "value"]

/-- Whether a word, in any letter case, is one of plain prose. -/
def isCommon (word : String) : Bool := commonWords.contains (Text.lowered word)

/-- What a word is worth: what is written after its bar, else one, or nothing for a common word. -/
def relevance (word : String) : Option String → Except Cause Nat
  | some written =>
    match Text.unsigned? Text.maxScore written with
    | some n => .ok n
    | none => .error (.invalidKeywordRelevance word written)
  | none => .ok (if isCommon word then 0 else 1)

/-! ## 3. Tables -/

/-- What is known of a word: its category, and what it is worth. -/
structure Entry where
  scope : String
  relevance : Nat
  deriving DecidableEq, Repr

/-- The keywords of a mode. In a table that is blind to case all words stand in lower case. -/
structure Table where
  entries : Dictionary String Entry
  caseInsensitive : Bool

namespace Table

/-- A word as a table spells it. -/
def spell (caseInsensitive : Bool) (word : String) : String :=
  if caseInsensitive then Text.lowered word else word

/-- The entries with one more declared word. -/
def declare (caseInsensitive : Bool) (entries : Dictionary String Entry)
    (scope token : String) : Except Cause (Dictionary String Entry) := do
  let (word, written) := Text.cutAt '|' (spell caseInsensitive token)
  return entries.insert word ⟨scope, ← Keyword.relevance word written⟩

/-- The entries with further declared words. -/
def declareAll (caseInsensitive : Bool) (entries : Dictionary String Entry) :
    List (String × String) → Except Cause (Dictionary String Entry)
  | [] => .ok entries
  | (scope, token) :: rest => do
    declareAll caseInsensitive (← declare caseInsensitive entries scope token) rest

/-- The table of a declaration. -/
def compile (keywords : Keywords) (caseInsensitive : Bool) : Except Cause Table := do
  return ⟨← declareAll caseInsensitive .empty (declarations keywords), caseInsensitive⟩

/-- What is known of a word. -/
def find? (t : Table) (word : String) : Option Entry :=
  t.entries.get? (spell t.caseInsensitive word)

/-- The number of words. -/
def size (t : Table) : Nat := t.entries.size

end Table

end Highlight.Keyword
