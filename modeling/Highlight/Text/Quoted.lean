import Highlight.Unicode.Character

/-!
# Quoted text

How a text is shown inside a message: between double quotes, with every character that would not
show spelled out. The rule for one character:

* the quote, the backslash, and the four controls with a letter of their own take a backslash;
* characters that do not show, or that attach to the one before them, are written `\u` and their
  code point in hexadecimal, in braces;
* every other character stands for itself.
-/

namespace Highlight.Text

/-- The code point of a character in hexadecimal, without leading zeros. -/
def hexOf (c : Char) : List Char := Nat.toDigits 16 c.toNat

/-- How one character is written between the quotes. -/
def quoteChar (c : Char) : List Char :=
  match c with
  | '"' => ['\\', '"']
  | '\\' => ['\\', '\\']
  | '\n' => ['\\', 'n']
  | '\r' => ['\\', 'r']
  | '\t' => ['\\', 't']
  | '\x00' => ['\\', '0']
  | c =>
    if Unicode.isExtender c || Unicode.isHidden c then
      ['\\', 'u', '\x7b'] ++ hexOf c ++ ['\x7d']
    else [c]

/-- A text between double quotes, with what would not show spelled out. -/
def quoted (s : String) : String :=
  String.ofList ('"' :: s.toList.flatMap quoteChar ++ ['"'])

end Highlight.Text
