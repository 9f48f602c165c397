import Highlight.Regex.Syntax

/-!
# The tree that is run

What a pattern comes to once it is settled how its loops go round and how far back its looks go.

* `EmptyRound` -- what a loop makes of a round that reads nothing;
* `Node` -- the tree of a pattern, as it is matched against a text.
-/

namespace Highlight.Regex

/-- What a loop makes of a round that reads nothing. -/
inductive EmptyRound where
  /-- There is none. -/
  | never
  /-- It ends the loop, unless it changes what one of these groups has read. -/
  | ends (groups : List Nat)
  deriving DecidableEq, Repr

/-- The tree of a pattern, as it is matched against a text. -/
inductive Node where
  /-- Reads these characters. -/
  | text (cs : List Char)
  /-- Reads one character that passes the test. -/
  | set (t : CharTest)
  /-- Reads nothing where the condition holds. -/
  | anchor (a : Anchor)
  /-- Reads nothing, and never does. -/
  | never
  /-- Reads `a`, then `b`. -/
  | seq (a b : Node)
  /-- Reads `a`, or `b` where no way to read `a` leads on. -/
  | alt (a b : Node)
  /-- Reads `a` and remembers where, under a number. While `a` is being read a `fresh` group has
      read nothing; another one still ends where it ended before. -/
  | group (index : Nat) (fresh : Bool) (a : Node)
  /-- Reads `a` in the first way that it can be read, and in no other. -/
  | atomic (a : Node)
  /-- Reads `a` at least `low` times and at most `high` times, as often as possible or, when
      `isLazy`, as seldom as possible. In a `counted` loop every round may end it by reading
      nothing, in another one only those of an unbounded number beyond the required ones. -/
  | loop (low : Nat) (high : Option Nat) (isLazy counted : Bool) (onEmpty : EmptyRound) (a : Node)
  /-- Reads nothing where `a` can be read, or cannot be read when `negated`. -/
  | ahead (negated : Bool) (a : Node)
  /-- Reads nothing where `a` can be read from `width` characters before, or cannot when
      `negated`. -/
  | behind (negated : Bool) (width : Nat) (a : Node)
  /-- Reads again what the first of the groups that took part has read. -/
  | again (groups : List Nat) (folded : Bool)
  deriving DecidableEq, Repr

end Highlight.Regex
