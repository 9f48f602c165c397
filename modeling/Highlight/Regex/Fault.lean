/-!
# What can be wrong with a pattern

* `Fault` -- the ways in which a text fails to be a pattern;
* `Fault.message` -- the sentence that names each.
-/

namespace Highlight.Regex

/-- The ways in which a text fails to be a pattern. -/
inductive Fault where
  /-- A group is never closed. -/
  | groupUnclosed
  /-- A closing parenthesis closes nothing. -/
  | groupUnopened
  /-- The text ends between the question mark of a group and what it announces. -/
  | groupCut
  /-- What follows the question mark of a group announces nothing known. -/
  | groupUnknown
  /-- A named group or reference has the empty name. -/
  | nameEmpty
  /-- A group or reference has a name that is none. -/
  | nameInvalid (name : String)
  /-- A name has a character that no name may have. -/
  | nameCharacter (name : String)
  /-- A reference names a group that has not been opened. -/
  | nameUndefined (name : String)
  /-- A reference has the number of no group. -/
  | referenceUndefined
  /-- A bracketed class is never closed. -/
  | classUnclosed
  /-- A bracketed class has no member. -/
  | classEmpty
  /-- The last character of a range comes before the first. -/
  | rangeEmpty
  /-- A range ends in a class. -/
  | rangeOpen
  /-- A range begins in a class. -/
  | rangeUnmatched
  /-- A class is named that does not exist. -/
  | classUnknown
  /-- A property is named that does not exist. -/
  | propertyUnknown (name : String)
  /-- A repetition has nothing to repeat. -/
  | nothingToRepeat
  /-- A repetition is asked of what has no text of its own. -/
  | repeatTargetInvalid
  /-- A repetition asks for too many rounds. -/
  | tooManyRounds
  /-- What is looked for behind has no width of its own, or something that may not stand there. -/
  | lookBehindInvalid
  /-- The text ends in a backslash. -/
  | escapeCut
  /-- The text ends inside a control escape. -/
  | controlCut
  /-- A number in an escape is too large. -/
  | numberTooBig
  /-- An escape stands for no character. -/
  | notACharacter
  /-- Escaped bytes stop in the middle of a character. -/
  | characterCut
  /-- Groups nest deeper than any pattern of this length can. -/
  | tooDeep
  deriving DecidableEq, Repr

/-- How many bytes of a name a sentence shows. -/
def shownBytes : Nat := 30

/-- A name as a sentence shows it, with dots for what is left out. Nothing when the cut falls into
    a character. -/
def shownName (name : String) : Option String :=
  let rec cut (room : Nat) : List Char → Option (List Char)
    | [] => some []
    | c :: cs =>
      if room == 0 then some ['.', '.', '.']
      else if room < c.utf8Size then none
      else (cut (room - c.utf8Size) cs).map (c :: ·)
  (cut shownBytes name.toList).map String.ofList

/-- A sentence around a name. -/
def around (start name stop : String) : String :=
  match shownName name with
  | some shown => start ++ shown ++ stop
  | none => "Onig error string was invalid UTF-8"

/-- The sentence that names a fault. -/
def Fault.message : Fault → String
  | .groupUnclosed => "end pattern with unmatched parenthesis"
  | .groupUnopened => "unmatched close parenthesis"
  | .groupCut => "end pattern in group"
  | .groupUnknown => "undefined group option"
  | .nameEmpty => "group name is empty"
  | .nameInvalid name => around "invalid group name <" name ">"
  | .nameCharacter name => around "invalid char in group name <" name ">"
  | .nameUndefined name => around "undefined name <" name "> reference"
  | .referenceUndefined => "invalid backref number/name"
  | .classUnclosed => "premature end of char-class"
  | .classEmpty => "empty char-class"
  | .rangeEmpty => "empty range in char class"
  | .rangeOpen => "char-class value at end of range"
  | .rangeUnmatched => "unmatched range specifier in char-class"
  | .classUnknown => "invalid POSIX bracket type"
  | .propertyUnknown name => around "invalid character property name \x7b" name "\x7d"
  | .nothingToRepeat => "target of repeat operator is not specified"
  | .repeatTargetInvalid => "target of repeat operator is invalid"
  | .tooManyRounds => "too big number for repeat range"
  | .lookBehindInvalid => "invalid pattern in look-behind"
  | .escapeCut => "end pattern at escape"
  | .controlCut => "end pattern at control"
  | .numberTooBig => "too big number"
  | .notACharacter => "invalid code point value"
  | .characterCut => "too short multibyte string"
  | .tooDeep => "parse depth limit over"

end Highlight.Regex
