import Highlight.Regex.Reader
import Highlight.Regex.Loops
import Highlight.Regex.Matching

/-!
# Patterns and searches

* `Regex` -- a pattern that can be matched, and `readPattern`, which makes one of a text;
* `Found` -- a match: what was read, and what the groups have read;
* `matchAt` -- the match that begins at an index;
* `search` -- the match that begins first, from an index on. What stands before that index
  is still seen by anchors and by looks behind.
-/

namespace Highlight

/-! ## 1. Patterns -/

/-- A pattern that can be matched. -/
structure Regex where
  node : Regex.Node
  /-- The number of its groups. -/
  groups : Nat
  deriving DecidableEq, Repr

namespace Regex

/-- Reads a pattern; with `folded`, letters count as the same in either case. What is written is
    read first as a whole, then its references have to have a group, and at last its looks behind a
    width. -/
def readPattern (cs : List Char) (folded : Bool) : Except Fault Regex := do
  let (a, groups) ← readSyntax cs folded
  if a.references.any (groups < ·) then throw .referenceUndefined
  let caseless := a.caselessGroups
  let a := a.joinTexts.foldTexts false
  let a ← (a.overview caseless).settle 0 a
  return ⟨(a.overview caseless).toNode false a, groups⟩

/-! ## 2. Searches -/

/-- A match: the stretch that was read, and what the groups have read. -/
structure Found where
  span : Span
  captures : Captures
  deriving DecidableEq, Repr

/-- What a group of a match has read; group zero is the whole match. -/
def Found.group? (m : Found) (index : Nat) : Option Span :=
  if index == 0 then some m.span else m.captures.find? index

/-- The match of a pattern that begins at index `i`, in a search that began at `origin`. -/
def matchFrom (r : Regex) (text : Text) (origin i : Nat) : Option Found :=
  (r.node.run text origin ⟨i, []⟩ some).map fun p => ⟨⟨i, p.pos⟩, p.captures⟩

/-- The match of a pattern that begins at index `i`. -/
def matchAt (r : Regex) (text : Text) (i : Nat) : Option Found :=
  if i ≤ text.size then r.matchFrom text i i else none

/-- The first match among those that begin at one of `n` indices, the first of which is `i`. -/
def firstFrom (r : Regex) (text : Text) (origin : Nat) : Nat → Nat → Option Found
  | 0, _ => none
  | n + 1, i => r.matchFrom text origin i <|> r.firstFrom text origin n (i + 1)

/-- The match that begins first, from index `i` on. -/
def search (r : Regex) (text : Text) (i : Nat) : Option Found :=
  r.firstFrom text i (text.size + 1 - i) i

end Regex

end Highlight
