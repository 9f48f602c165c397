import Highlight.Regex.Search

/-!
# Building patterns from patterns

Grammars are written with pattern texts; this file fixes how a text is made from others.

* `join`, `either`, `lookahead`, `anyNumberOfTimes`, `optional` -- the usual combinations;
* `escape` -- the pattern that reads a text literally;
* `compile`, `countGroups`, `startsWith` -- from a pattern text to what it matches.
-/

namespace Highlight.Pattern

open Highlight.Regex (Fault)

/-! ## 1. Combinations -/

/-- Patterns one after another. -/
def join (patterns : List String) : String := String.join patterns

/-- A look ahead at a pattern. -/
def lookahead (pattern : String) : String := "(?=" ++ pattern ++ ")"

/-- A pattern any number of times. -/
def anyNumberOfTimes (pattern : String) : String := "(?:" ++ pattern ++ ")*"

/-- A pattern once or not at all. -/
def optional (pattern : String) : String := "(?:" ++ pattern ++ ")?"

/-- One of several patterns, as a numbered group when `capture` holds. -/
def either (patterns : List String) (capture : Bool) : String :=
  (if capture then "(" else "(?:") ++ String.intercalate "|" patterns ++ ")"

/-! ## 2. Literal text -/

/-- The characters that a backslash has to take their meaning from. -/
def isSpecial (c : Char) : Bool := "-/\\^$*+?.()|[]\x7b\x7d".toList.contains c

/-- Each special character with a backslash before it. -/
def escapeChars : List Char → List Char
  | [] => []
  | c :: cs => if isSpecial c then '\\' :: c :: escapeChars cs else c :: escapeChars cs

/-- The pattern that reads a text literally. -/
def escape (value : String) : String := String.ofList (escapeChars value.toList)

/-! ## 3. Compiling -/

/-- What a pattern text means; with `folded`, letters count as the same in either case. -/
def compile (pattern : String) (folded : Bool) : Except Fault Regex :=
  Regex.readPattern pattern.toList folded

/-- The number of groups in a pattern. -/
def countGroups (pattern : String) : Except Fault Nat := do
  return (← compile pattern false).groups

/-- Whether a pattern matches a text exactly from a byte offset on. -/
def startsWith (r : Regex) (text : Text) (offset : Nat) : Bool :=
  (r.matchAt text (text.indexAt offset)).isSome

end Highlight.Pattern
