import Highlight.Unicode.Character

/-!
# Sets of characters in a pattern

A bracketed class, a class escape such as `\w`, and the dot all read one character out of a set.

* `CharClass` -- the classes that have a name;
* `CharSet` -- a set written with ranges, named classes, complement, union and intersection;
* `CharTest` -- a set as a pattern uses it: perhaps negated, perhaps blind to letter case.
-/

namespace Highlight.Regex

open Highlight.Unicode

/-! ## 1. Named classes -/

/-- The character classes that a pattern can name. -/
inductive CharClass where
  | alnum | alpha | ascii | blank | cntrl | digit | graph | lower | print | punct | space | upper
  | word | xdigit
  deriving DecidableEq, Repr

/-- Whether a character belongs to a named class. -/
def CharClass.has : CharClass → Char → Bool
  | .alnum, c => isAlphabetic c || isDigit c
  | .alpha, c => isAlphabetic c
  | .ascii, c => c.toNat < 0x80
  | .blank, c => isBlank c
  | .cntrl, c => isControl c
  | .digit, c => isDigit c
  | .graph, c => isGraphic c
  | .lower, c => isLower c
  | .print, c => isGraphic c || (isBlank c && c != '\t')
  | .punct, c => isPunctuation c
  | .space, c => isSpace c
  | .upper, c => isUpper c
  | .word, c => isWord c
  | .xdigit, c => isHexDigit c

/-- The names between `[:` and `:]`. -/
def CharClass.names : List (List Char × CharClass) :=
  [("alnum".toList, .alnum), ("alpha".toList, .alpha), ("blank".toList, .blank),
   ("cntrl".toList, .cntrl), ("digit".toList, .digit), ("graph".toList, .graph),
   ("lower".toList, .lower), ("print".toList, .print), ("punct".toList, .punct),
   ("space".toList, .space), ("upper".toList, .upper), ("xdigit".toList, .xdigit),
   ("ascii".toList, .ascii), ("word".toList, .word)]

/-! ## 2. Sets -/

/-- A set of characters. -/
inductive CharSet where
  | empty
  | range (first last : Char)
  | named (cls : CharClass)
  | compl (s : CharSet)
  | union (s t : CharSet)
  | inter (s t : CharSet)
  deriving DecidableEq, Repr

/-- Whether a character is in a set. -/
def CharSet.has : CharSet → Char → Bool
  | .empty, _ => false
  | .range first last, c => first ≤ c && c ≤ last
  | .named cls, c => cls.has c
  | .compl s, c => !s.has c
  | .union s t, c => s.has c || t.has c
  | .inter s t, c => s.has c && t.has c

/-- The set of one character. -/
def CharSet.single (c : Char) : CharSet := .range c c

/-! ## 3. Tests -/

/-- What a pattern asks of one character: to be in `members`, or not to be when `negated`. With
    `folded` a character counts as a member when one that differs from it in case only is one. -/
structure CharTest where
  members : CharSet
  negated : Bool
  folded : Bool
  deriving DecidableEq, Repr

/-- Whether a character passes a test. The case of letters is put aside before the set is
    negated, so a negated class refuses a letter in either case. -/
def CharTest.accepts (t : CharTest) (c : Char) : Bool :=
  t.negated ^^ (t.members.has c || (t.folded && (caseVariants c).any t.members.has))

end Highlight.Regex
