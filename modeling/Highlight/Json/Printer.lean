import Highlight.Json.Value

/-!
# Writing JSON

* `Json.render` -- a value as text, without blanks. Numbers are written as they were read;
  controls, quotes and backslashes in strings are escaped.
-/

namespace Highlight.Json

/-- Four hexadecimal digits. -/
def fourDigits (n : Nat) : List Char :=
  let digits := Nat.toDigits 16 n
  List.replicate (4 - digits.length) '0' ++ digits

/-- One character of a string. -/
def renderChar (c : Char) : List Char :=
  if c == '"' then ['\\', '"']
  else if c == '\\' then ['\\', '\\']
  else if c == '\n' then ['\\', 'n']
  else if c.toNat < 0x20 then '\\' :: 'u' :: fourDigits c.toNat
  else [c]

/-- A string between quotes. -/
def renderString (s : String) : List Char := '"' :: s.toList.flatMap renderChar ++ ['"']

mutual

/-- A value as text. -/
def renderValue : Json → List Char
  | .null => "null".toList
  | .bool true => "true".toList
  | .bool false => "false".toList
  | .number text => text
  | .string s => renderString s
  | .array items => '[' :: renderItems items ++ [']']
  | .object fields => '\x7b' :: renderFields fields ++ ['\x7d']
  | .unreadable => "null".toList

/-- The items of an array. -/
def renderItems : List Json → List Char
  | [] => []
  | [v] => renderValue v
  | v :: vs => renderValue v ++ ',' :: renderItems vs

/-- The fields of an object. -/
def renderFields : List (String × Json) → List Char
  | [] => []
  | [(k, v)] => renderString k ++ ':' :: renderValue v
  | (k, v) :: fs => renderString k ++ ':' :: renderValue v ++ ',' :: renderFields fs

end

/-- A value as text. -/
def render (v : Json) : String := String.ofList (renderValue v)

end Highlight.Json
