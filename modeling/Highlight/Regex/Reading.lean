import Highlight.Regex.Syntax
import Highlight.Regex.Fault

/-!
# Reading: the common ground

What the readers of a pattern share: how far they have come, and how numbers, names and escapes
are written.

* `Progress`, `Reading` -- the text still to be read, the groups opened so far, and the fault that
  ends the reading;
* `Flags` -- what the options of a pattern switch;
* `readEscape`, `readBytes` -- the character that an escape stands for, or some that write bytes;
* `readName`, `readReferred` -- the name of a group, and what a reference by name refers to.
-/

namespace Highlight.Regex

/-! ## 1. Progress -/

/-- How far the reading of a pattern has come. -/
structure Progress where
  /-- What is still to be read. -/
  rest : List Char
  /-- How many groups have been opened. -/
  groups : Nat
  /-- The named groups opened so far, with their numbers. -/
  names : List (List Char × Nat)
  /-- The groups that have been opened and not closed. -/
  opened : List Nat

/-- A step of the reading: it takes text away, or ends with a fault. -/
abbrev Reading := StateT Progress (Except Fault)

/-- What the options of a pattern switch. -/
structure Flags where
  /-- Letters count as the same in either case. -/
  folded : Bool
  /-- The dot accepts a newline. -/
  dotAll : Bool
  deriving DecidableEq, Repr

/-- How deep groups, alternatives and classes may nest. -/
def maxNesting : Nat := 4096

/-- What is still to be read. -/
def rest : Reading (List Char) := do return (← get).rest

/-- Goes on with `cs`. -/
def goOn (cs : List Char) : Reading Unit := modify fun s => { s with rest := cs }

/-! ## 2. Numbers -/

/-- The value of one hexadecimal digit. -/
def hexValue (c : Char) : Nat :=
  if c.isDigit then c.toNat - 48 else (c.toLower.toNat - 97) + 10

/-- Whether a character is an octal digit. -/
def isOctalDigit (c : Char) : Bool := '0' ≤ c && c ≤ '7'

/-- The number written by the leading digits, and what follows them. -/
def leadingNumber (base : Nat) (isDigit : Char → Bool) : Nat → Nat → List Char → Nat × List Char
  | 0, n, cs => (n, cs)
  | _ + 1, n, [] => (n, [])
  | most + 1, n, c :: cs =>
    if isDigit c then leadingNumber base isDigit most (n * base + hexValue c) cs else (n, c :: cs)

/-- The decimal number that a text begins with, and what follows it. -/
def leadingDecimal (cs : List Char) : Nat × List Char :=
  leadingNumber 10 Char.isDigit cs.length 0 cs

/-! ## 3. Escapes -/

/-- The characters with a code point. -/
def charOf (n : Nat) : Except Fault Char :=
  if h : n.isValidChar then .ok (Char.ofNatAux n h) else .error .notACharacter

/-- The character that a letter after the backslash stands for, where it is a control. -/
def controlOf? : Char → Option Char
  | 'n' => some '\n'
  | 't' => some '\t'
  | 'r' => some '\r'
  | 'f' => some '\x0c'
  | 'v' => some '\x0b'
  | 'a' => some '\x07'
  | 'b' => some '\x08'
  | 'e' => some '\x1b'
  | _ => none

/-- The character that an escape stands for, from the letter after the backslash on. A character
    without a meaning of its own stands for itself. -/
def readEscape : List Char → Except Fault (Char × List Char)
  | [] => .error .escapeCut
  | 'c' :: [] => .error .controlCut
  | 'c' :: '?' :: cs => .ok ('\x7f', cs)
  | 'c' :: '\\' :: cs => do
    let (c, cs) ← readEscape cs
    return (← charOf (c.toNat &&& 0x9F), cs)
  | 'c' :: c :: cs => do return (← charOf (c.toNat &&& 0x9F), cs)
  | c :: cs => .ok ((controlOf? c).getD c, cs)

/-- The character with a code point in braces after `\x`, where there is one. -/
def readBraced : List Char → Except Fault (Option (Char × List Char))
  | '\x7b' :: inner =>
    let (n, after) := leadingNumber 16 Unicode.isHexDigit 8 0 inner
    match after with
    | '\x7d' :: after =>
      if inner.length == after.length + 1 then .ok none
      else do return some (← charOf n, after)
    | _ => .ok none
  | _ => .ok none

/-! ## 4. Bytes -/

/-- How a byte is written: `\x` with two digits, or a backslash and three octal ones. -/
inductive ByteForm where
  | hex
  | octal
  deriving DecidableEq, Repr

/-- What a character or some bytes write. -/
inductive Written where
  | char (c : Char)
  /-- A byte that begins no character, alone or with bytes after it that make none. -/
  | byte (b : Nat)
  deriving DecidableEq, Repr

/-- The byte that a text begins with in escaped form, if it does. -/
def readByte : List Char → Except Fault (Option (Nat × ByteForm × List Char))
  | '\\' :: 'x' :: c :: cs => do
    match ← readBraced (c :: cs) with
    | some _ => return none
    | none =>
      let (b, after) := leadingNumber 16 Unicode.isHexDigit 2 0 (c :: cs)
      return some (b, .hex, after)
  | '\\' :: c :: cs =>
    if isOctalDigit c then
      let (b, after) := leadingNumber 8 isOctalDigit 3 0 (c :: cs)
      if 0xFF < b then .error .numberTooBig else .ok (some (b, .octal, after))
    else .ok none
  | _ => .ok none

/-- How many bytes follow a first byte in UTF-8. -/
def bytesAfter (b : Nat) : Nat :=
  if b < 0xC0 then 0 else if b < 0xE0 then 1 else if b < 0xF0 then 2 else if b < 0xF8 then 3 else 0

/-- The next `n` escaped bytes; all in the same form, if one is given. -/
def furtherBytes (form : Option ByteForm) : Nat → List Char → Except Fault (List Nat × List Char)
  | 0, cs => .ok ([], cs)
  | n + 1, cs => do
    match ← readByte cs with
    | none => throw .characterCut
    | some (b, f, after) =>
      unless form.all (· == f) do throw .characterCut
      let (bs, after) ← furtherBytes form n after
      return (b :: bs, after)

/-- What a first byte and those after it write. -/
def writtenBy (b : Nat) (more : List Nat) : Written :=
  if more.isEmpty then
    if b < 0x80 then .char (Char.ofNat b) else .byte b
  else
    let n := more.foldl (fun n b => n * 64 + b % 64) (b % Nat.pow 2 (6 - more.length))
    if n.isValidChar && (Char.ofNat n).utf8Size == more.length + 1 then .char (Char.ofNat n)
    else .byte b

/-- What the escaped byte `b` and those after it write. -/
def readBytes (form : Option ByteForm) (b : Nat) (cs : List Char) :
    Except Fault (Written × List Char) := do
  let (more, after) ← furtherBytes form (bytesAfter b) cs
  if more.any fun b => b < 0x80 || 0xC0 ≤ b then throw .notACharacter
  return (writtenBy b more, after)

/-! ## 5. Class escapes and properties -/

/-- The class that a letter after the backslash names, and whether it is negated. -/
def classEscape? : Char → Option (CharClass × Bool)
  | 'w' => some (.word, false)
  | 'W' => some (.word, true)
  | 'd' => some (.digit, false)
  | 'D' => some (.digit, true)
  | 's' => some (.space, false)
  | 'S' => some (.space, true)
  | 'h' => some (.xdigit, false)
  | 'H' => some (.xdigit, true)
  | _ => none

/-- The set that a class, perhaps negated, stands for. -/
def classSet (cls : CharClass) (negated : Bool) : CharSet :=
  if negated then .compl (.named cls) else .named cls

/-- The name of a property without what does not count in it. -/
def plainName (cs : List Char) : List Char :=
  (cs.filter fun c => c != ' ' && c != '-' && c != '_').map Char.toLower

/-- The characters of the name of a property, and what follows. -/
def propertySpan : List Char → List Char × List Char
  | [] => ([], [])
  | c :: cs =>
    if c == '\x7d' || c == '(' || c == ')' || c == '\x7b' || c == '|' then ([], c :: cs)
    else
      let (name, after) := propertySpan cs
      (c :: name, after)

/-- The set of a property, from what follows the opening brace on. -/
def readProperty (negated : Bool) (cs : List Char) : Except Fault (CharSet × List Char) :=
  let (negated, cs) := match cs with
    | '^' :: cs => (!negated, cs)
    | cs => (negated, cs)
  let (name, after) := propertySpan cs
  match after, CharClass.names.lookup (plainName name) with
  | '\x7d' :: after, some cls => .ok (classSet cls negated, after)
  | [], _ => .error (.propertyUnknown (String.ofList name.dropLast))
  | _, _ => .error (.propertyUnknown (String.ofList name))

/-! ## 6. Names -/

/-- Whether a character ends the name of a group that is to be closed by another one. -/
def endsName (close c : Char) : Bool := c == close || c == ')'

/-- Whether a character ends what a reference refers to. -/
def endsReferred (close c : Char) : Bool := endsName close c || c == '+' || c == '-'

/-- The characters of a name up to its end, and what follows: the character that ended it, if
    any, is the first of the rest. -/
def nameSpan (isEnd : Char → Bool) : List Char → List Char × List Char
  | [] => ([], [])
  | c :: cs =>
    if isEnd c then ([], c :: cs)
    else
      let (name, after) := nameSpan isEnd cs
      (c :: name, after)

/-- A name that the text ends in is shown without its last character, if it has more than one. -/
def cutName : List Char → List Char
  | [c] => [c]
  | cs => cs.dropLast

/-- The name of a group, from its first character up to the character `close`, and what follows. A
    name begins with a word character that is no digit, and has word characters only. -/
def readName (close : Char) (cs : List Char) : Except Fault (List Char × List Char) :=
  match cs with
  | [] => .error .nameEmpty
  | first :: more =>
    if first == close then .error .nameEmpty
    else
      let (tail, after) := nameSpan (endsName close) more
      let name := first :: tail
      let shown := String.ofList name
      let wrong := String.ofList (if after.length ≤ 1 then name ++ after else name)
      if first.isDigit || first == '-' || first == '+' then .error (.nameInvalid wrong)
      else if !Unicode.isWord first then .error (.nameCharacter wrong)
      else
        match after with
        | [] => .error (.nameInvalid (String.ofList (cutName name)))
        | c :: after =>
          if c != close then .error (.nameInvalid shown)
          else if name.all Unicode.isWord then .ok (name, after)
          else .error (.nameCharacter shown)

/-- What a reference refers to. -/
inductive Referred where
  /-- The groups with a name. -/
  | name (cs : List Char)
  /-- The group with a number. -/
  | number (n : Nat)
  /-- A group so many before the next one. -/
  | before (n : Nat)
  /-- A group so many after the last one. -/
  | after (n : Nat)
  deriving DecidableEq, Repr

/-- The greatest number that a pattern can write. -/
def maxNumber : Nat := 2147483647

/-- What some characters refer to: digits give a number, digits after a sign one that counts from
    here. -/
def referredBy : List Char → Except Fault Referred
  | '-' :: ds => counted .before ds
  | '+' :: ds => counted .after ds
  | c :: cs => if c.isDigit then counted .number (c :: cs) else .ok (.name (c :: cs))
  | [] => .error .nameEmpty
where
  /-- The number that digits write. -/
  counted (make : Nat → Referred) (ds : List Char) : Except Fault Referred :=
    let n := (leadingDecimal ds).1
    if maxNumber < n then .error .numberTooBig else .ok (make n)

/-- What is wrong with the characters that a reference is written with, if they are so by
    themselves. -/
def referredFault? : List Char → Option (String → Fault)
  | [] => none
  | c :: cs =>
    if c.isDigit then if cs.all Char.isDigit then none else some (faultAt cs)
    else if c == '-' || c == '+' then
      if cs.isEmpty || !cs.all Char.isDigit then some (faultAt cs) else none
    else if (c :: cs).all Unicode.isWord then none
    else some .nameCharacter
where
  /-- Once a number has gone wrong, what follows is looked at as a name. -/
  faultAt (cs : List Char) : String → Fault :=
    match cs.dropWhile Char.isDigit with
    | _ :: more => if more.all Unicode.isWord then .nameInvalid else .nameCharacter
    | [] => .nameInvalid

/-- What a reference refers to, from after the opening bracket up to the character `close`; whether
    it asks for another depth of recursion; and what follows. -/
def readReferred (close : Char) (cs : List Char) :
    Except Fault (Referred × Bool × List Char) := do
  match cs with
  | [] => throw .nameEmpty
  | first :: more =>
    if first == close then throw .nameEmpty
    let (tail, after) := nameSpan (endsReferred close) more
    let name := first :: tail
    let whole := Fault.nameInvalid (String.ofList cs)
    match after with
    | [] =>
      if more.isEmpty && (first == '-' || first == '+') then
        throw (.nameCharacter (String.ofList cs))
      match endless name with
      | some fault => throw (fault (String.ofList (cutName name)))
      | none => throw whole
    | c :: after =>
      match referredFault? name with
      | some fault => throw (fault (String.ofList name))
      | none =>
        if c == close then
          let referred ← referredBy name
          checkCounted name referred
          return (referred, false, after)
        else if c == ')' then throw whole
        else
          if after.isEmpty then throw (.nameCharacter (String.ofList name))
          let (depth, rest) := leadingDecimal after
          if rest.length == after.length then throw whole
          if maxNumber < depth then throw .numberTooBig
          match rest with
          | d :: rest =>
            if d != close then throw whole
            let referred ← referredBy name
            checkCounted name referred
            return (referred, depth != 0, rest)
          | [] => throw whole
where
  /-- What is wrong with a name that the text ends in, apart from that. -/
  endless (name : List Char) : Option (String → Fault) :=
    match name with
    | '-' :: [] | '+' :: [] => none
    | '-' :: ds | '+' :: ds => if ds.all Char.isDigit then none else referredFault? name
    | name => referredFault? name
  /-- No group is as many as zero before or after another. -/
  checkCounted (name : List Char) : Referred → Except Fault Unit
    | .before 0 | .after 0 => .error (.nameInvalid (String.ofList name))
    | _ => .ok ()

end Highlight.Regex
