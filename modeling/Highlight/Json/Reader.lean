import Highlight.Json.Value

/-!
# Reading JSON

The strict grammar: one value, blanks around it, nothing else. What nests deeper than `maxDepth` is
well written and yet no value.

* `readString` -- a string from after its opening quote on, with its escapes;
* `readNumber` -- a number, as text;
* `readValue` -- a value;
* `Json.parse` -- a whole text.
-/

namespace Highlight.Json

/-- How deep arrays and objects may nest. -/
def maxDepth : Nat := 127

/-- A text without the blanks that it begins with. -/
def dropBlanks : List Char → List Char
  | [] => []
  | c :: cs => if c == ' ' || c == '\n' || c == '\t' || c == '\r' then dropBlanks cs else c :: cs

/-! ## 1. Strings -/

/-- The value of a hexadecimal digit. -/
def hexValue? (c : Char) : Option Nat :=
  if c.isDigit then some (c.toNat - 48)
  else if 'a' ≤ c && c ≤ 'f' then some (c.toNat - 87)
  else if 'A' ≤ c && c ≤ 'F' then some (c.toNat - 55)
  else none

/-- The value of four hexadecimal digits. -/
def hexFour? : List Char → Option (Nat × List Char)
  | a :: b :: c :: d :: cs => do
    let a ← hexValue? a
    let b ← hexValue? b
    let c ← hexValue? c
    let d ← hexValue? d
    return (((a * 16 + b) * 16 + c) * 16 + d, cs)
  | _ => none

/-- The character that a letter after the backslash stands for. -/
def escaped? : Char → Option Char
  | '"' => some '"'
  | '\\' => some '\\'
  | '/' => some '/'
  | 'b' => some '\x08'
  | 'f' => some '\x0c'
  | 'n' => some '\n'
  | 'r' => some '\r'
  | 't' => some '\t'
  | _ => none

/-- The first or the second half of a surrogate pair. -/
def isHighHalf (n : Nat) : Bool := 0xD800 ≤ n && n < 0xDC00

/-- The second half of a surrogate pair. -/
def isLowHalf (n : Nat) : Bool := 0xDC00 ≤ n && n < 0xE000

/-- A string from after its opening quote on: its characters, or nothing when an escape stands for
    half a surrogate pair, and what follows its closing quote. -/
def readString : Nat → List Char → Option (Option (List Char) × List Char)
  | 0, _ => none
  | _ + 1, [] => none
  | _ + 1, '"' :: cs => some (some [], cs)
  | fuel + 1, '\\' :: 'u' :: cs => do
    let (n, cs) ← hexFour? cs
    if isHighHalf n then
      match cs with
      | '\\' :: 'u' :: more =>
        let (m, more) ← hexFour? more
        if isLowHalf m then
          let (s, after) ← readString fuel more
          return (s.map (Char.ofNat (0x10000 + (n - 0xD800) * 0x400 + (m - 0xDC00)) :: ·), after)
        else
          let (_, after) ← readString fuel cs
          return (none, after)
      | _ =>
        let (_, after) ← readString fuel cs
        return (none, after)
    else
      let (s, after) ← readString fuel cs
      return (if isLowHalf n then none else s.map (Char.ofNat n :: ·), after)
  | fuel + 1, '\\' :: c :: cs => do
    let c ← escaped? c
    let (s, after) ← readString fuel cs
    return (s.map (c :: ·), after)
  | fuel + 1, c :: cs =>
    if c.toNat < 0x20 then none
    else do
      let (s, after) ← readString fuel cs
      return (s.map (c :: ·), after)

/-! ## 2. Numbers -/

/-- The digits that a text begins with, of which there has to be one. -/
def readDigits (cs : List Char) : Option (List Char × List Char) :=
  let digits := cs.takeWhile Char.isDigit
  if digits.isEmpty then none else some (digits, cs.drop digits.length)

/-- The digits before the point: a zero alone, or digits that begin with another one. -/
def readWhole (cs : List Char) : Option (List Char × List Char) := do
  let (digits, after) ← readDigits cs
  match digits with
  | '0' :: _ :: _ => none
  | _ => return (digits, after)

/-- The point and the digits after it, if there is a point. -/
def readFraction : List Char → Option (List Char × List Char)
  | '.' :: cs => do
    let (digits, after) ← readDigits cs
    return ('.' :: digits, after)
  | cs => some ([], cs)

/-- The sign and the digits of an exponent. -/
def readSigned (cs : List Char) : Option (List Char × List Char) :=
  match cs with
  | '+' :: cs => do
    let (digits, after) ← readDigits cs
    return ('+' :: digits, after)
  | '-' :: cs => do
    let (digits, after) ← readDigits cs
    return ('-' :: digits, after)
  | cs => readDigits cs

/-- The exponent, if there is one. -/
def readExponent : List Char → Option (List Char × List Char)
  | 'e' :: cs => do
    let (exponent, after) ← readSigned cs
    return ('e' :: exponent, after)
  | 'E' :: cs => do
    let (exponent, after) ← readSigned cs
    return ('e' :: exponent, after)
  | cs => some ([], cs)

/-- The value of a list of digits. -/
def digitsValue (ds : List Char) : Nat := ds.foldl (fun n c => n * 10 + (c.toNat - 48)) 0

/-- The value of an exponent, from after its letter on. -/
def exponentValue : List Char → Int
  | '-' :: ds => -Int.ofNat (digitsValue ds)
  | '+' :: ds => Int.ofNat (digitsValue ds)
  | ds => Int.ofNat (digitsValue ds)

/-- The number whose leading digits make `n` and that goes on with further ones, as far as it stays
    below `2 ^ 64`, and how many digits that takes. -/
def takeDigits (n : Nat) : List Char → Nat × Nat
  | [] => (n, 0)
  | c :: cs =>
    let next := n * 10 + (c.toNat - 48)
    if next < Nat.pow 2 64 then
      let (m, taken) := takeDigits next cs
      (m, taken + 1)
    else (n, 0)

/-- The float nearest to a number, as a number; of two that are equally near, the even one. -/
def nearestFloat (n : Nat) : Nat :=
  let unit := Nat.pow 2 (n.log2 - 52)
  let half := n % unit * 2
  let below := n / unit
  (if half > unit || (half == unit && below % 2 == 1) then below + 1 else below) * unit

/-- Whether a number lies beyond every float: the leading digits, as far as they stay below
    `2 ^ 64`, and the power of ten that they count are made floats, and then multiplied. -/
def beyondFloats (leading : Nat) (power : Int) : Bool :=
  leading != 0 && 0 ≤ power
    && (308 < power
      || Nat.pow 2 1024 - Nat.pow 2 970 ≤
        nearestFloat leading * nearestFloat (Nat.pow 10 power.toNat))

/-- A number without its sign: its text, whether it lies beyond every float, and what follows. Of
    the digits that do not fit, those before the point still count as places. -/
def readMagnitude (cs : List Char) : Option (List Char × Bool × List Char) := do
  let (whole, cs) ← readWhole cs
  let (fraction, cs) ← readFraction cs
  let (exponent, cs) ← readExponent cs
  let (n, before) := takeDigits 0 whole
  let (n, behind) := takeDigits n (fraction.drop 1)
  let power := exponentValue (exponent.drop 1) + (whole.length - before : Nat) - behind
  return (whole ++ fraction ++ exponent, beyondFloats n power, cs)

/-- A number. -/
def readNumber (cs : List Char) : Option (Json × List Char) := do
  let (sign, cs) := match cs with
    | '-' :: cs => (['-'], cs)
    | cs => ([], cs)
  let (text, beyond, after) ← readMagnitude cs
  return (if beyond then .unreadable else .number (sign ++ text), after)

/-! ## 3. Values -/

/-- The rest of a text that begins with `word`. -/
def afterWord? : List Char → List Char → Option (List Char)
  | [], cs => some cs
  | _ :: _, [] => none
  | a :: word, c :: cs => if a == c then afterWord? word cs else none

/-- An object whose keys are all strings. -/
def objectOf (fields : List (Option String × Json)) : Json :=
  match fields.mapM fun (k, v) => k.map (·, v) with
  | some fields => .object fields
  | none => .unreadable

/-- An array or object where `depth` more may still be opened. -/
def withinDepth (depth : Nat) (v : Json) : Json :=
  match depth with
  | 0 => .unreadable
  | _ + 1 => v

mutual

/-- A value. `depth` is how many arrays and objects may still be opened. -/
def readValue : Nat → Nat → List Char → Option (Json × List Char)
  | 0, _, _ => none
  | fuel + 1, depth, cs =>
    match dropBlanks cs with
    | 'n' :: cs => (afterWord? "ull".toList cs).map (.null, ·)
    | 't' :: cs => (afterWord? "rue".toList cs).map (.bool true, ·)
    | 'f' :: cs => (afterWord? "alse".toList cs).map (.bool false, ·)
    | '"' :: cs => do
      let (s, after) ← readString fuel cs
      return (match s with
        | some s => .string (String.ofList s)
        | none => .unreadable, after)
    | '[' :: cs =>
      match dropBlanks cs with
      | ']' :: after => some (withinDepth depth (.array []), after)
      | cs => do
        let (items, after) ← readItems fuel (depth - 1) cs
        return (withinDepth depth (.array items), after)
    | '\x7b' :: cs =>
      match dropBlanks cs with
      | '\x7d' :: after => some (withinDepth depth (.object []), after)
      | cs => do
        let (fields, after) ← readFields fuel (depth - 1) cs
        return (withinDepth depth (objectOf fields), after)
    | cs => readNumber cs

/-- The items of an array, up to and with its closing bracket. -/
def readItems : Nat → Nat → List Char → Option (List Json × List Char)
  | 0, _, _ => none
  | fuel + 1, depth, cs => do
    let (v, after) ← readValue fuel depth cs
    match dropBlanks after with
    | ',' :: cs =>
      let (vs, after) ← readItems fuel depth cs
      return (v :: vs, after)
    | ']' :: after => return ([v], after)
    | _ => none

/-- The fields of an object, up to and with its closing brace. -/
def readFields : Nat → Nat → List Char → Option (List (Option String × Json) × List Char)
  | 0, _, _ => none
  | fuel + 1, depth, cs => do
    match dropBlanks cs with
    | '"' :: cs =>
      let (key, after) ← readString fuel cs
      match dropBlanks after with
      | ':' :: cs =>
        let (v, after) ← readValue fuel depth cs
        let field := (key.map String.ofList, v)
        match dropBlanks after with
        | ',' :: cs =>
          let (fields, after) ← readFields fuel depth cs
          return (field :: fields, after)
        | '\x7d' :: after => return ([field], after)
        | _ => none
      | _ => none
    | _ => none

end

/-- The value that a whole text writes. -/
def parse (s : String) : Option Json := do
  let cs := s.toList
  let (v, after) ← readValue (2 * cs.length + 2) maxDepth cs
  if (dropBlanks after).isEmpty then return v else none

end Highlight.Json
