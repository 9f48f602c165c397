import Highlight.Pattern.Combine
import Highlight.Text.Words

/-!
# Merging patterns and renumbering their references

Several patterns are merged by wrapping each in a group and writing them one after another. Each
wrapper, and each group of an earlier pattern, pushes the groups of a later one back, so its
numbered references have to move along. The patterns are not read for that, only cut into pieces:

* `Piece` -- a bracketed class, the opening of a group, a numbered reference, another escape, or a
  single character;
* `pieces` -- a pattern cut into pieces;
* `merge` -- the merged pattern. A group counts as numbered when no question mark follows its
  opening parenthesis.
-/

namespace Highlight.Pattern

/-! ## 1. Pieces -/

/-- What the pattern is cut into. -/
inductive Piece where
  /-- A bracketed class, without its brackets. -/
  | cls (body : List Char)
  /-- The opening parenthesis of a numbered group. -/
  | opening
  /-- An opening parenthesis and a question mark. -/
  | special
  /-- A backslash and the digits of a number that does not begin with zero. -/
  | reference (digits : List Char)
  /-- A backslash and another character. -/
  | escaped (c : Char)
  /-- A character that begins none of these. -/
  | plain (c : Char)
  deriving DecidableEq, Repr

/-- The pattern text of a piece. -/
def Piece.text : Piece → List Char
  | .cls body => '[' :: body ++ [']']
  | .opening => ['(']
  | .special => ['(', '?']
  | .reference digits => '\\' :: digits
  | .escaped c => ['\\', c]
  | .plain c => [c]

/-- The body of a bracketed class, from after its opening bracket on, and what follows its closing
    bracket. Nothing when the class is never closed, or has a backslash at the end of a line. -/
def classBody? : List Char → Option (List Char × List Char)
  | [] => none
  | ']' :: cs => some ([], cs)
  | '\\' :: [] => none
  | '\\' :: c :: cs =>
    if c == '\n' then none else (classBody? cs).map fun (body, after) => ('\\' :: c :: body, after)
  | c :: cs => (classBody? cs).map fun (body, after) => (c :: body, after)

/-- The piece that a text begins with, and what follows it. -/
def nextPiece (c : Char) (cs : List Char) : Piece × List Char :=
  match c, cs with
  | '[', cs =>
    match classBody? cs with
    | some (body, after) => (.cls body, after)
    | none => (.plain '[', cs)
  | '(', '?' :: cs => (.special, cs)
  | '(', cs => (.opening, cs)
  | '\\', d :: cs =>
    if '1' ≤ d && d ≤ '9' then
      (.reference (d :: cs.takeWhile Char.isDigit), cs.dropWhile Char.isDigit)
    else if d == '\n' then (.plain '\\', d :: cs)
    else (.escaped d, cs)
  | c, cs => (.plain c, cs)

/-- The pieces of a text. Each takes at least one character, so `fuel` equal to the length of the
    text is enough. -/
def piecesFrom : Nat → List Char → List Piece
  | 0, _ => []
  | _ + 1, [] => []
  | fuel + 1, c :: cs =>
    let (piece, after) := nextPiece c cs
    piece :: piecesFrom fuel after

/-- The pieces of a text. -/
def pieces (cs : List Char) : List Piece := piecesFrom cs.length cs

/-! ## 2. Renumbering -/

/-- The number that digits write; a number that no index can hold counts as zero. -/
def groupNumber (digits : List Char) : Nat :=
  let n := (Text.digitsFrom? 0 digits).getD 0
  if n ≤ Text.maxCount then n else 0

/-- A piece with its reference moved by `offset`. -/
def Piece.shift (offset : Nat) : Piece → Piece
  | .reference digits => .reference (Nat.toDigits 10 (groupNumber digits + offset))
  | piece => piece

/-- How many of the pieces open a numbered group. -/
def openings (ps : List Piece) : Nat := ps.countP (· == .opening)

/-- A pattern with its references moved by `offset`, in a group of its own. -/
def wrapped (offset : Nat) (ps : List Piece) : List Char :=
  '(' :: ps.flatMap (fun p => (p.shift offset).text) ++ [')']

/-- The patterns, each wrapped, when `opened` groups stand before the first. -/
def wrapAll (opened : Nat) : List String → List String
  | [] => []
  | pattern :: patterns =>
    let ps := pieces pattern.toList
    String.ofList (wrapped (opened + 1) ps) :: wrapAll (opened + 1 + openings ps) patterns

/-- The patterns, each in a group of its own and with its references renumbered, with `separator`
    between them. -/
def merge (patterns : List String) (separator : String) : String :=
  String.intercalate separator (wrapAll 0 patterns)

end Highlight.Pattern
