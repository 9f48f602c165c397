import Highlight.Text.Slice

/-!
# Lines of a text

* `linesOf` -- the lines of a text, each with the newline that ends it;
* `lineAt` -- the line that a byte offset falls in, its number counted from one, and the distance
  of the offset from its start.
-/

namespace Highlight.Text

/-- The lines of a list of characters, each with its newline. A text that ends in a newline has no
    empty last line. -/
def linesOf : List Char → List (List Char)
  | [] => []
  | c :: cs =>
    if c == '\n' then [c] :: linesOf cs
    else
      match linesOf cs with
      | [] => [[c]]
      | line :: rest => (c :: line) :: rest

/-- Where an offset falls: the number of its line, the line, and the offset within the line. -/
structure LinePlace where
  number : Nat
  line : List Char
  column : Nat

/-- The line among `lines`, the first of which has the given number, that an offset falls in. -/
def placeIn (number : Nat) : List (List Char) → Nat → Option LinePlace
  | [], _ => none
  | line :: rest, offset =>
    if offset < byteLength line then some ⟨number, line, offset⟩
    else placeIn (number + 1) rest (offset - byteLength line)

/-- The line that a byte offset falls in; nothing from the end of the text on. -/
def lineAt (s : String) (offset : Nat) : Option LinePlace :=
  placeIn 1 (linesOf s.toList) offset

end Highlight.Text
