/-!
# Texts by index

The engine and the scanner address a text by character index; every offset that is shown counts
UTF-8 bytes. This file fixes both readings:

* `Text` -- a text as an array of characters;
* `Text.slice` -- the text between two indices;
* `Text.byteOffset`, `Text.indexAt` -- from an index to its byte offset, and back.
-/

namespace Highlight

/-- A text as its characters, addressed by index. -/
abbrev Text := Array Char

namespace Text

/-- The characters of a string. -/
def ofString (s : String) : Text := s.toList.toArray

/-- The string of a text. -/
def toStr (t : Text) : String := String.ofList t.toList

/-- The text from index `i` up to index `j`, without the character at `j`. -/
def slice (t : Text) (i j : Nat) : String := String.ofList (t.extract i j).toList

/-- How many bytes a list of characters takes in UTF-8. -/
def byteLength : List Char → Nat
  | [] => 0
  | c :: cs => c.utf8Size + byteLength cs

/-- The byte offset of the character with index `i`. An index past the end counts on by ones. -/
def byteOffsetFrom : List Char → Nat → Nat
  | [], i => i
  | _ :: _, 0 => 0
  | c :: cs, i + 1 => c.utf8Size + byteOffsetFrom cs i

/-- The byte offset of index `i` in a text. -/
def byteOffset (t : Text) (i : Nat) : Nat := byteOffsetFrom t.toList i

/-- The index of the character that starts at byte `offset`. An offset past the end counts on by
    ones, so it stays past the end. -/
def indexFrom : List Char → Nat → Nat
  | [], offset => offset
  | _ :: _, 0 => 0
  | c :: cs, offset + 1 => 1 + indexFrom cs (offset + 1 - c.utf8Size)

/-- The index that byte `offset` of a text stands for. -/
def indexAt (t : Text) (offset : Nat) : Nat := indexFrom t.toList offset

end Text

end Highlight
