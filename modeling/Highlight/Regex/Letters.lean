import Highlight.Regex.Syntax
import Highlight.Text.Slice

/-!
# Letters in either case

Where letters count as the same in either case, a text is replaced by what it can read: sets of
letters, and characters that stand for two or three letters at once, such as the sharp s.

* `Syntax.ofClass` -- a bracketed class, with the texts that some of its members stand for;
* `Syntax.joinTexts` -- texts that stand side by side made one, since a character may stand for
  letters of both;
* `Syntax.foldTexts` -- every text replaced by what it can read.
-/

namespace Highlight.Regex

/-! ## 1. Rows of letters -/

/-- The pieces of a list, in a row. -/
def Syntax.row : List Syntax → Syntax
  | [] => .empty
  | [a] => a
  | a :: b => a.join (row b)

/-- One of several pieces; the first one comes first. -/
def Syntax.anyOf (a : Syntax) : List Syntax → Syntax
  | [] => a
  | b :: bs => .alt a (b.anyOf bs)

/-- The texts that fold to these characters one by one. -/
def Syntax.letters (folded : List Char) : Syntax :=
  .row (folded.map fun f => .oneOf (Unicode.foldSources f))

/-! ## 2. Classes -/

/-- The texts of two or three characters that members of a class stand for, each once. -/
def CharTest.longTexts (t : CharTest) : List (List Char) :=
  ((Unicode.longFolded.filter fun e => t.accepts e.1).map (·.2)).eraseDups

/-- One character that passes a test. Where letters count as the same in either case, a text that
    a member stands for passes as well, unless the test is negated. -/
def Syntax.ofClass (t : CharTest) : Syntax :=
  if t.folded && !t.negated then Syntax.anyOf (.set t) (t.longTexts.map Syntax.letters)
  else .set t

/-! ## 3. Texts -/

/-- Texts that stand side by side in a row made one. A row that begins another row stays apart from
    what follows it. -/
def Syntax.joinTexts : Syntax → Syntax
  | .cat a b =>
    match a with
    | .text cs f => (Syntax.text cs f).join b.joinTexts
    | a => .cat a.joinTexts b.joinTexts
  | .alt a b => .alt a.joinTexts b.joinTexts
  | .group kind a => .group kind a.joinTexts
  | .loop low high isLazy a => .loop low high isLazy a.joinTexts
  | .ahead negated a => .ahead negated a.joinTexts
  | .behind negated width a => .behind negated width a.joinTexts
  | a => a

/-- What a character folds to, unless that is longer. -/
def shortFold (c : Char) : Char :=
  match Unicode.fold c with
  | [f] => f
  | _ => c

/-- What can be read for one character alone. -/
def lettersFor (c : Char) : Syntax :=
  let same := Syntax.oneOf (c :: Unicode.caseVariants c)
  match Unicode.fold c with
  | [_] => same
  | fs => .alt same (.letters fs)

/-- What can be read for characters that some others stand for, if any do. -/
def joinedFor? (cs : List Char) : Option Syntax :=
  let folded := cs.map shortFold
  match Unicode.joined folded with
  | [] => none
  | ds => some (.alt (.letters folded) (.oneOf ds))

/-- What can be read for a text: three characters at once where one stands for them, or else two. -/
def piecesFor : List Char → List Syntax
  | [] => []
  | [c] => [lettersFor c]
  | [c, d] =>
    match joinedFor? [c, d] with
    | some a => [a]
    | none => lettersFor c :: piecesFor [d]
  | c :: d :: e :: cs =>
    match joinedFor? [c, d, e], joinedFor? [c, d] with
    | some a, _ => a :: piecesFor cs
    | none, some a => a :: piecesFor (e :: cs)
    | none, none => lettersFor c :: piecesFor (d :: e :: cs)

/-- What can be read for a text inside a look behind, where every character is one. -/
def narrowPiecesFor (cs : List Char) : List Syntax :=
  cs.map fun c => .oneOf (c :: Unicode.caseVariants c)

/-- How many characters, by their bytes, repeated texts may have to be written out. -/
def maxWritten : Nat := 100

/-- A piece repeated. A short text that is repeated a fixed number of times is written out. -/
def Syntax.loopOver (low : Nat) (high : Option Nat) (isLazy : Bool) (a : Syntax) : Syntax :=
  match a with
  | .text cs folded =>
    let bytes := Text.byteLength cs
    if high == some low && 1 < low && low ≤ maxWritten && bytes * low ≤ maxWritten then
      .text (List.replicate low cs).flatten folded
    else .loop low high isLazy (.text cs folded)
  | a => .loop low high isLazy a

/-- Every text replaced by what it can read. -/
def Syntax.foldTexts (isBehind : Bool) : Syntax → Syntax
  | .text cs true => .row (if isBehind then narrowPiecesFor cs else piecesFor cs)
  | .cat a b => .cat (a.foldTexts isBehind) (b.foldTexts isBehind)
  | .alt a b => .alt (a.foldTexts isBehind) (b.foldTexts isBehind)
  | .group kind a => .group kind (a.foldTexts isBehind)
  | .loop low high isLazy a => .loopOver low high isLazy (a.foldTexts isBehind)
  | .ahead negated a => .ahead negated (a.foldTexts isBehind)
  | .behind negated width a => .behind negated width (a.foldTexts true)
  | a => a

end Highlight.Regex
