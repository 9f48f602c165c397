import Highlight.Regex.Syntax

/-!
# How pieces begin

What a piece has to read first, as far as its form shows it, and when two pieces cannot begin with
the same character.

* `Syntax.head?` -- the text or set that a piece begins with;
* `CharTest.isWide` -- whether a class lists characters beyond ASCII;
* `excludes` -- that two beginnings have no character in common, as far as can be told;
* `Syntax.givesNothingBack` -- that a loop need not give back what it has read.
-/

namespace Highlight.Regex

/-! ## 1. Beginnings -/

/-- The set that the dot accepts. -/
def isDot (t : CharTest) : Bool :=
  t.members == .compl (.single '\n') || t.members == .compl .empty

/-- The text or set that a piece begins with. -/
def Syntax.head? : Syntax → Option Syntax
  | .text cs folded => if cs.isEmpty then none else some (.text cs folded)
  | .set t => if isDot t then none else some (.set t)
  | .cat a _ => a.head?
  | .loop low _ _ a => if low == 0 then none else a.head?
  | .group .plain _ => none
  | .group _ a => a.head?
  | .ahead false a => a.head?
  | _ => none

/-- Whether a class lists characters beyond ASCII. -/
def CharSet.isWide : CharSet → Bool
  | .empty => false
  | .range _ last => 0x80 ≤ last.toNat
  | .named cls => cls != .ascii && cls != .xdigit
  | .compl _ => true
  | .union s t => s.isWide || t.isWide
  | .inter s t => s.isWide && t.isWide

/-- Whether a test lists characters beyond ASCII. Of the letters of ASCII, `k` and `s` bring some
    with them. -/
def CharTest.isWide (t : CharTest) : Bool :=
  t.members.isWide || (t.folded && ['k', 'K', 's', 'S'].any t.members.has)

/-- The characters of ASCII. -/
def asciiChars : List Char := (List.range 0x80).map Char.ofNat

/-! ## 2. Beginnings that exclude each other -/

/-- Whether a test is that for a word character, or for one that is none. -/
def wordTest? (t : CharTest) : Option Bool :=
  if t.members == .named .word then some true
  else if t.members == .compl (.named .word) then some false
  else none

/-- Whether two tests have no character in common, as far as their lists show. -/
def testsExclude (t u : CharTest) : Bool :=
  let apart := !asciiChars.any fun c => t.accepts c && u.accepts c
  match wordTest? t, wordTest? u with
  | some a, some b => a != b
  | some _, none => !u.isWide && !u.negated && apart
  | none, some _ => !t.isWide && !t.negated && apart
  | none, none => apart && (!(t.isWide || t.negated) || !(u.isWide || u.negated))

/-- Whether two texts differ within the shorter one. -/
def textsExclude : List Char → List Char → Bool
  | c :: cs, d :: ds => c != d || textsExclude cs ds
  | _, _ => false

/-- Whether two beginnings have no character in common, as far as can be told. -/
def excludes : Syntax → Syntax → Bool
  | .text cs _, .text ds _ => textsExclude cs ds
  | .text (c :: _) _, .set t => !t.accepts c
  | .set t, .text (c :: _) _ => !t.accepts c
  | .set t, .set u => testsExclude t u
  | _, _ => false

/-- Whether a piece is one text or set, which reads something. -/
def Syntax.isStrict : Syntax → Bool
  | .text cs _ => !cs.isEmpty
  | .set _ => true
  | _ => false

/-- Whether the loop `a` need not give back what it has read: it reads as much as there is of one
    text or set, and what follows begins otherwise. -/
def Syntax.givesNothingBack (a next : Syntax) : Bool :=
  match a with
  | .group (.capture _) a => a.givesNothingBack next
  | .loop low none false a =>
    low ≤ 1 && a.isStrict &&
      match a.head?, next.head? with
      | some x, some y => excludes x y
      | _, _ => false
  | _ => false

end Highlight.Regex
