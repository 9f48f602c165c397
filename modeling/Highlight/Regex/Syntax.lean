import Highlight.Regex.CharSet

/-!
# Patterns as they are written

The tree of a pattern, as its text gives it. Stretches of plain characters stay together, since
letters that differ in case only may stand for several of them at once.

* `Anchor` -- a condition on a position of the text;
* `GroupKind` -- what a group in parentheses is for;
* `Syntax` -- the tree of a pattern;
* `Syntax.captures`, `Syntax.references` -- the groups that remember, and what refers to them;
* `Syntax.canBeEmpty` -- whether a piece might read nothing.
-/

namespace Highlight.Regex

/-! ## 1. The tree -/

/-- A condition on a position of the text. -/
inductive Anchor where
  /-- At the start of a line. -/
  | lineStart
  /-- At the end of a line. -/
  | lineEnd
  /-- At the start of the text. -/
  | textStart
  /-- At the end of the text. -/
  | textEnd
  /-- At the end of the text, or before a newline that ends it. -/
  | lastLineEnd
  /-- Between a word character and one that is none. -/
  | wordEdge
  /-- Not between a word character and one that is none. -/
  | noWordEdge
  /-- Where the search began. -/
  | searchStart
  deriving DecidableEq, Repr

/-- What a group in parentheses is for. -/
inductive GroupKind where
  /-- It remembers what it has read, under a number. -/
  | capture (index : Nat)
  /-- It can be read in one way only. -/
  | atomic
  /-- It has options of its own. -/
  | scoped
  /-- It only holds together. -/
  | plain
  deriving DecidableEq, Repr

/-- The tree of a pattern. -/
inductive Syntax where
  /-- Plain characters in a row; with `folded`, letters count as the same in either case. -/
  | text (cs : List Char) (folded : Bool)
  /-- One character that passes the test. -/
  | set (t : CharTest)
  /-- Nothing, where the condition holds. -/
  | anchor (a : Anchor)
  /-- What cannot be read. -/
  | never
  /-- `a`, then `b`. -/
  | cat (a b : Syntax)
  /-- `a`, or else `b`. -/
  | alt (a b : Syntax)
  /-- A group. -/
  | group (kind : GroupKind) (a : Syntax)
  /-- `a`, at least `low` times and at most `high` times: as often as possible or, when `isLazy`,
      as seldom as possible. -/
  | loop (low : Nat) (high : Option Nat) (isLazy : Bool) (a : Syntax)
  /-- Nothing, where `a` can be read, or cannot when `negated`. -/
  | ahead (negated : Bool) (a : Syntax)
  /-- Nothing, where `a` can be read from `width` characters before, or cannot when `negated`. The
      width is known only when the whole pattern has been read. -/
  | behind (negated : Bool) (width : Nat) (a : Syntax)
  /-- What the first of these groups that took part has read, once more. `isInner` says that it
      stands inside such a group. -/
  | again (groups : List Nat) (folded isInner : Bool)
  deriving DecidableEq, Repr

namespace Syntax

/-- The piece that reads nothing. -/
def empty : Syntax := .text [] false

/-- A piece that reads one of some characters. -/
def oneOf (cs : List Char) : Syntax :=
  match cs with
  | [c] => .text [c] false
  | cs => .set ⟨cs.foldr (fun c s => .union (.single c) s) .empty, false, false⟩

/-- Two pieces in a row. Texts that stand side by side and agree on letter case are one text. -/
def join : Syntax → Syntax → Syntax
  | .text cs f, .text ds g => if f == g then .text (cs ++ ds) f else .cat (.text cs f) (.text ds g)
  | .text cs f, .cat (.text ds g) b =>
    if f == g then .cat (.text (cs ++ ds) f) b else .cat (.text cs f) (.cat (.text ds g) b)
  | a, b => .cat a b

/-- The pieces of `a`, followed by `b`, in one row. -/
def followedBy : Syntax → Syntax → Syntax
  | .cat a b, c => .cat a (b.followedBy c)
  | a, b => .cat a b

/-- The first piece of a row. -/
def first : Syntax → Syntax
  | .cat a _ => a
  | a => a

/-- The alternatives of `a`, held together where they are not to be mixed up with those before. -/
def held : Syntax → Syntax
  | .alt a b => .group .plain (.alt a b)
  | a => a

/-! ## 2. Groups and references -/

/-- The groups that remember what they have read, by number, outer ones first. -/
def captures : Syntax → List (Nat × Syntax)
  | .cat a b | .alt a b => a.captures ++ b.captures
  | .group (.capture n) a => (n, a) :: a.captures
  | .group _ a | .loop _ _ _ a | .ahead _ a | .behind _ _ a => a.captures
  | _ => []

/-- The groups that are referred to, once for each reference. -/
def references : Syntax → List Nat
  | .cat a b | .alt a b => a.references ++ b.references
  | .group _ a | .loop _ _ _ a | .ahead _ a | .behind _ _ a => a.references
  | .again groups _ _ => groups
  | _ => []

/-! ## 3. Pieces that might read nothing -/

/-- Whether a piece might read nothing, given which groups might have read nothing. -/
def canBeEmpty (inner : Nat → Bool) : Syntax → Bool
  | .text cs _ => cs.isEmpty
  | .set _ => false
  | .cat a b => a.canBeEmpty inner && b.canBeEmpty inner
  | .alt a b => a.canBeEmpty inner || b.canBeEmpty inner
  | .group _ a => a.canBeEmpty inner
  | .loop low _ _ a => low == 0 || a.canBeEmpty inner
  | .again groups _ isInner => isInner || groups.any inner
  | _ => true

/-- Whether a group might have read nothing. A group is asked for by a reference, and may have
    references of its own; `depth` many lead on. -/
def groupCanBeEmpty (groups : List (Nat × Syntax)) : Nat → Nat → Bool
  | 0, _ => true
  | depth + 1, n => (groups.lookup n).all fun a => a.canBeEmpty (groupCanBeEmpty groups depth)

end Syntax

end Highlight.Regex
