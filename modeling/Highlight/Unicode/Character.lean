import Highlight.Unicode.LetterTable
import Highlight.Unicode.PrintTable
import Highlight.Unicode.CaseTable

/-!
# Characters by property

What the library asks of a single character:

* `isAlphabetic`, `isDigit`, `isWord`, `isSpace`, `isUpper`, `isLower`, `isPunctuation`, … -- the
  classes that patterns name. Each answers for ASCII without looking at a table;
* `isHidden`, `isExtender` -- what a quoted text has to spell out;
* `fold`, `caseVariants`, `joined` -- letters that differ in case only, and letters that stand for
  several others.
-/

namespace Highlight.Unicode

/-! ## 1. Words -/

/-- Letters, in any script. -/
def isAlphabetic (c : Char) : Bool :=
  if c.toNat < 0x80 then c.isAlpha else Table.alphabetic.contains c.toNat

/-- Decimal digits, in any script. -/
def isDigit (c : Char) : Bool :=
  if c.toNat < 0x80 then c.isDigit else Table.decimalDigit.contains c.toNat

/-- Characters of a word: letters, marks, numbers and connectors such as the underscore. -/
def isWord (c : Char) : Bool :=
  if c.toNat < 0x80 then c.isAlphanum || c == '_'
  else Table.alphabetic.contains c.toNat || Table.decimalDigit.contains c.toNat
    || Table.wordJoiner.contains c.toNat

/-- Capital letters, in any script. -/
def isUpper (c : Char) : Bool :=
  if c.toNat < 0x80 then c.isUpper else Table.upperCase.contains c.toNat

/-- Small letters, in any script. -/
def isLower (c : Char) : Bool :=
  if c.toNat < 0x80 then c.isLower else Table.lowerCase.contains c.toNat

/-- Hexadecimal digits; ASCII only. -/
def isHexDigit (c : Char) : Bool :=
  c.isDigit || ('a' ≤ c && c ≤ 'f') || ('A' ≤ c && c ≤ 'F')

/-! ## 2. Blanks, controls and what is printed -/

/-- White space: the property White_Space. -/
def isSpace (c : Char) : Bool :=
  let n := c.toNat
  (9 ≤ n && n ≤ 13) || n == 0x20 || n == 0x85 || n == 0xA0 || n == 0x1680
    || (0x2000 ≤ n && n ≤ 0x200A) || n == 0x2028 || n == 0x2029 || n == 0x202F || n == 0x205F
    || n == 0x3000

/-- Control characters: the general category Cc. -/
def isControl (c : Char) : Bool :=
  c.toNat < 0x20 || (0x7F ≤ c.toNat && c.toNat < 0xA0)

/-- Blanks inside a line: space separators and the tab. -/
def isBlank (c : Char) : Bool :=
  c == '\t' || (isSpace c && !isControl c && c.toNat != 0x2028 && c.toNat != 0x2029)

/-- Punctuation and symbols. -/
def isPunctuation (c : Char) : Bool :=
  if c.toNat < 0x80 then 0x20 < c.toNat && c.toNat < 0x7F && !c.isAlphanum
  else Table.symbol.contains c.toNat

/-- Characters that leave a mark on the page. What has been assigned last does not count. -/
def isGraphic (c : Char) : Bool :=
  !isSpace c && !isControl c
    && (c.toNat < 0x80
      || !(Table.unassigned.contains c.toNat || Table.newcomer.contains c.toNat))

/-- Code points set aside for private use. -/
def isPrivate (c : Char) : Bool :=
  let n := c.toNat
  (0xE000 ≤ n && n ≤ 0xF8FF) || (0xF0000 ≤ n && n ≤ 0xFFFFD) || (0x100000 ≤ n && n ≤ 0x10FFFD)

/-- Letters that only hold the place of one. -/
def isFiller (c : Char) : Bool :=
  c.toNat == 0x115F || c.toNat == 0x1160 || c.toNat == 0x3164 || c.toNat == 0xFFA0

/-- Characters that do not show: controls, formats, fillers, private use, unassigned code points,
    and every separator other than the plain space. -/
def isHidden (c : Char) : Bool :=
  isControl c || (isSpace c && c != ' ')
    || (0x80 ≤ c.toNat
      && (isFiller c || isPrivate c || Table.format.contains c.toNat
        || Table.unassigned.contains c.toNat))

/-- Marks that attach to the character before them. -/
def isExtender (c : Char) : Bool :=
  0x80 ≤ c.toNat && Table.extender.contains c.toNat

/-! ## 3. Letter case -/

/-- The property Cased. -/
def isCased (c : Char) : Bool :=
  if c.toNat < 0x80 then c.isAlpha else Table.cased.contains c.toNat

/-- The property Case_Ignorable. -/
def isCaseIgnorable (c : Char) : Bool := Table.caseIgnorable.contains c.toNat

/-- The case folding: characters that differ in case only fold to the same text. Some fold to two
    or three characters, such as the sharp s. -/
def fold (c : Char) : List Char :=
  if c.toNat < 0x80 then [c.toLower]
  else
    match Table.longFolds.lookup c.toNat with
    | some letters => letters.map Char.ofNat
    | none => [Char.ofNat (mapThrough Table.foldRuns c.toNat)]

/-- The characters that fold to two or three, with what they fold to; those that fold to two come
    first. -/
def longFolded : List (Char × List Char) :=
  let all := Table.longFolds.map fun e => (Char.ofNat e.1, e.2.map Char.ofNat)
  all.filter (·.2.length == 2) ++ all.filter (·.2.length != 2)

/-- The characters that stand for several letters in one: those that fold to this text of two or
    three characters. -/
def joined (folded : List Char) : List Char :=
  let wanted := folded.map Char.toNat
  (Table.longFolds.filter fun e => e.2 == wanted).map fun e => Char.ofNat e.1

/-- The characters that fold to this one. A character that nothing folds to is its own only one. -/
def foldSources (f : Char) : List Char :=
  f :: (sources Table.foldRuns f.toNat).map Char.ofNat

/-- The characters, other than `c` itself, that fold to what `c` folds to. -/
def caseVariants (c : Char) : List Char :=
  if c.toNat < 0x80 && !c.isAlpha then []
  else
    let others := match fold c with
      | [f] => foldSources f
      | fs => joined fs
    others.filter (· != c)

/-- The lower-case form of one character. Only the dotted capital I becomes two characters. -/
def lowerOf (c : Char) : List Char :=
  if c.toNat < 0x80 then [c.toLower]
  else if c.toNat == 0x130 then ['i', Char.ofNat 0x307]
  else [Char.ofNat (mapThrough Table.lowerRuns c.toNat)]

end Highlight.Unicode
