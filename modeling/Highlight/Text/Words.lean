import Highlight.Unicode.Character

/-!
# Words of a text, and numbers written in it

* `words` -- the words of a text, as white space separates them;
* `cutAt` -- a text cut at the first occurrence of a character;
* `unsigned?` -- a number written in decimal, with an optional plus sign.
-/

namespace Highlight.Text

/-! ## 1. Words -/

/-- The words of a list of characters. `word` holds the word being read, last character first. -/
def wordsFrom (word : List Char) : List Char → List (List Char)
  | [] => if word.isEmpty then [] else [word.reverse]
  | c :: cs =>
    if Unicode.isSpace c then
      if word.isEmpty then wordsFrom [] cs else word.reverse :: wordsFrom [] cs
    else wordsFrom (c :: word) cs

/-- The words of a text: the longest stretches without white space, in order. -/
def words (s : String) : List String := (wordsFrom [] s.toList).map String.ofList

/-- What stands before the first `sep`, and what stands after it when there is one. -/
def cutAtChar (sep : Char) : List Char → List Char × Option (List Char)
  | [] => ([], none)
  | c :: cs =>
    if c == sep then ([], some cs)
    else
      let (before, after) := cutAtChar sep cs
      (c :: before, after)

/-- A text cut at the first occurrence of `sep`. -/
def cutAt (sep : Char) (s : String) : String × Option String :=
  let (before, after) := cutAtChar sep s.toList
  (String.ofList before, after.map String.ofList)

/-! ## 2. Numbers -/

/-- The value of decimal digits read after `value`; nothing if another character appears. -/
def digitsFrom? (value : Nat) : List Char → Option Nat
  | [] => some value
  | c :: cs => if c.isDigit then digitsFrom? (value * 10 + (c.toNat - 48)) cs else none

/-- A number in decimal: an optional plus sign and at least one digit. -/
def decimal? : List Char → Option Nat
  | '+' :: c :: cs => digitsFrom? 0 (c :: cs)
  | '+' :: [] => none
  | [] => none
  | cs => digitsFrom? 0 cs

/-- A number in decimal that is at most `limit`. -/
def unsigned? (limit : Nat) (s : String) : Option Nat :=
  (decimal? s.toList).filter (· ≤ limit)

/-- The largest relevance that can be written: 32 bits. -/
def maxScore : Nat := Nat.pow 2 32 - 1

/-- The largest count or index that can be written: 64 bits. -/
def maxCount : Nat := Nat.pow 2 64 - 1

end Highlight.Text
