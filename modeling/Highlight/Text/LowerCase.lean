import Highlight.Unicode.Character

/-!
# Lower case of a text

Lower-casing works character by character, with one exception: a capital sigma that ends a word
becomes the final small sigma. This file fixes what "ends a word" means.

* `meetsCased` -- the first character that is not case-ignorable is cased;
* `lowerFrom` -- the lower-case form of a text, given what stands before it;
* `lowered` -- the lower-case form of a whole text.
-/

namespace Highlight.Text

/-- Whether the first character that is not case-ignorable is a cased one. -/
def meetsCased : List Char → Bool
  | [] => false
  | c :: cs => if Unicode.isCaseIgnorable c then meetsCased cs else Unicode.isCased c

/-- A capital sigma ends a word when a cased character comes before it and none after it. -/
def lowerSigma (before after : List Char) : Char :=
  if meetsCased before && !meetsCased after then 'ς' else 'σ'

/-- The lower-case form of a text. `before` is what stands in front of it, nearest first. -/
def lowerFrom (before : List Char) : List Char → List Char
  | [] => []
  | c :: cs =>
    (if c == 'Σ' then [lowerSigma before cs] else Unicode.lowerOf c) ++ lowerFrom (c :: before) cs

/-- The lower-case form of a text. -/
def lowered (s : String) : String := String.ofList (lowerFrom [] s.toList)

end Highlight.Text
