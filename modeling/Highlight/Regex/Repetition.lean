import Highlight.Regex.Reading

/-!
# Repetitions

How often a piece of a pattern is to be read. Repetitions of repetitions are simplified as they are
read, which shows in what loops of nothing do.

* `Repeat`, `readRepeat` -- a repetition and its written forms;
* `Syntax.isRepeatable` -- whether a piece has a text of its own to repeat;
* `Mark.fuse` -- one repetition for two, where both are written with one character;
* `Repeat.apply` -- a piece under a repetition.
-/

namespace Highlight.Regex

/-! ## 1. Written forms -/

/-- How often a piece is to be read. -/
structure Repeat where
  low : Nat
  high : Option Nat
  /-- As seldom as possible. -/
  isLazy : Bool
  /-- In one way only. -/
  isAtomic : Bool
  deriving DecidableEq, Repr

/-- The greatest number of rounds that a repetition may ask for. -/
def maxRounds : Nat := 100000

/-- A number of rounds, refused when it is too large. -/
def checkRounds (n : Nat) : Except Fault Unit :=
  if maxRounds < n then .error .tooManyRounds else .ok ()

/-- The bounds between braces, from after the opening brace on: the least and the greatest number
    of rounds and whether one number gives both. Nothing when the brace stands for itself. -/
def readBounds (cs : List Char) :
    Except Fault (Option (Nat × Option Nat × Bool × List Char)) := do
  let (low, more) := leadingDecimal cs
  checkRounds low
  let noLow := more.length == cs.length
  match more with
  | ',' :: more =>
    let (high, after) := leadingDecimal more
    checkRounds high
    let noHigh := after.length == more.length
    match after with
    | '\x7d' :: after =>
      if noHigh then
        if noLow then return none else return some (low, none, false, after)
      else return some (low, some high, false, after)
    | _ => return none
  | '\x7d' :: after =>
    if noLow then return none else return some (low, some low, true, after)
  | _ => return none

/-- A repetition written with one character: a question mark after it makes it lazy, a plus sign
    atomic. -/
def markedRepeat (low : Nat) (high : Option Nat) : List Char → Repeat × List Char
  | '?' :: cs => (⟨low, high, true, false⟩, cs)
  | '+' :: cs => (⟨low, high, false, true⟩, cs)
  | cs => (⟨low, high, false, false⟩, cs)

/-- The repetition that a text begins with, if there is one. Bounds in the wrong order are
    exchanged, and the repetition is atomic; one exact number is never lazy. -/
def readRepeat : List Char → Except Fault (Option (Repeat × List Char))
  | '*' :: cs => .ok (some (markedRepeat 0 none cs))
  | '+' :: cs => .ok (some (markedRepeat 1 none cs))
  | '?' :: cs => .ok (some (markedRepeat 0 (some 1) cs))
  | '\x7b' :: cs => do
    match ← readBounds cs with
    | none => return none
    | some (low, some high, exact, after) =>
      if high < low then return some (⟨high, some low, false, true⟩, after)
      else
        match exact, after with
        | false, '?' :: after => return some (⟨low, some high, true, false⟩, after)
        | _, _ => return some (⟨low, some high, false, false⟩, after)
    | some (low, none, _, after) =>
      match after with
      | '?' :: after => return some (⟨low, none, true, false⟩, after)
      | _ => return some (⟨low, none, false, false⟩, after)
  | _ => .ok none

/-! ## 2. Pieces under a repetition -/

/-- Whether a piece has a text of its own. A condition has none, nor have alternatives of which one
    has none; a group always counts as having one. -/
def Syntax.isRepeatable : Syntax → Bool
  | .anchor _ | .ahead _ _ | .behind _ _ _ => false
  | .alt a b => a.isRepeatable && b.isRepeatable
  | .group .plain a => a.isRepeatable
  | _ => true

/-- The repetitions that are written with one character, or with one and a question mark. -/
inductive Mark where
  | optional
  | any
  | several
  | optionalLazy
  | anyLazy
  | severalLazy
  deriving DecidableEq, Repr

/-- The repetition with these bounds, where one character writes it. -/
def Mark.of? (low : Nat) (high : Option Nat) (isLazy : Bool) : Option Mark :=
  match low, high, isLazy with
  | 0, some 1, false => some .optional
  | 0, none, false => some .any
  | 1, none, false => some .several
  | 0, some 1, true => some .optionalLazy
  | 0, none, true => some .anyLazy
  | 1, none, true => some .severalLazy
  | _, _, _ => none

/-- A piece under a repetition that one character writes. -/
def Mark.loop (m : Mark) (a : Syntax) : Syntax :=
  match m with
  | .optional => .loop 0 (some 1) false a
  | .any => .loop 0 none false a
  | .several => .loop 1 none false a
  | .optionalLazy => .loop 0 (some 1) true a
  | .anyLazy => .loop 0 none true a
  | .severalLazy => .loop 1 none true a

/-- What two repetitions, one inside the other, come to. -/
inductive Fusion where
  /-- One repetition. -/
  | one (m : Mark)
  /-- Two repetitions. -/
  | two (inner outer : Mark)
  deriving DecidableEq, Repr

/-- One repetition for two, the inner one first, where that reads the same texts. -/
def Mark.fuse : Mark → Mark → Fusion
  | .optional, .optional => .one .optional
  | .optional, .any | .optional, .several => .one .any
  | .optional, .optionalLazy => .one .optionalLazy
  | .optional, .anyLazy => .one .anyLazy
  | .any, .optionalLazy | .any, .anyLazy => .two .several .optionalLazy
  | .any, _ => .one .any
  | .several, .optional | .several, .any => .one .any
  | .several, .anyLazy => .two .several .optionalLazy
  | .several, .several | .several, .severalLazy => .one .several
  | .optionalLazy, .optional | .optionalLazy, .optionalLazy => .one .optionalLazy
  | .optionalLazy, _ => .one .anyLazy
  | .anyLazy, _ => .one .anyLazy
  | .severalLazy, .any => .one .any
  | .severalLazy, .several => .one .several
  | .severalLazy, .optionalLazy | .severalLazy, .anyLazy => .one .anyLazy
  | .severalLazy, .severalLazy => .one .severalLazy
  | inner, outer => .two inner outer

/-- A repetition over another one. Where the inner one is unbounded a bounded outer one need not go
    on beyond its least number of rounds; two exact numbers are multiplied. -/
def Repeat.overLoop (r : Repeat) (low : Nat) (high : Option Nat) (isLazy : Bool) (a : Syntax) :
    Except Fault Syntax :=
  match Mark.of? low high isLazy, Mark.of? r.low r.high r.isLazy with
  | some inner, some outer =>
    match inner.fuse outer with
    | .one m => .ok (m.loop a)
    | .two inner outer => .ok (outer.loop (inner.loop a))
  | some inner, none =>
    let isShort := (inner == .any || inner == .several) && !r.isLazy && r.high.any (1 < ·)
    let most := if isShort then some (max r.low 1) else r.high
    .ok (.loop r.low most r.isLazy (.loop low high isLazy a))
  | none, _ =>
    if high == some low && r.high == some r.low then
      if low != 0 && r.low != 0 && maxNumber / low ≤ r.low then .error .tooManyRounds
      else .ok (.loop (low * r.low) (some (low * r.low)) r.isLazy a)
    else .ok (.loop r.low r.high r.isLazy (.loop low high isLazy a))

/-- A piece that can be read in one way only, if so asked. -/
def Syntax.atomicIf (isAtomic : Bool) (a : Syntax) : Syntax :=
  if isAtomic then .group .atomic a else a

/-- A piece under a repetition. Of a text that is not `grouped`, the last character alone is
    repeated; a piece to be read once is itself. -/
def Repeat.apply (r : Repeat) (grouped : Bool) (a : Syntax) : Except Fault Syntax :=
  if r.low == 1 && r.high == some 1 then .ok a
  else
    match a with
    | .text cs folded =>
      match grouped, cs.getLast?, cs.dropLast with
      | false, some c, d :: ds =>
        let last := Syntax.loop r.low r.high r.isLazy (.text [c] folded)
        .ok (.cat (.text (d :: ds) folded) (last.atomicIf r.isAtomic))
      | _, _, _ => .ok ((Syntax.loop r.low r.high r.isLazy a).atomicIf r.isAtomic)
    | .loop low high isLazy b => do return (← r.overLoop low high isLazy b).atomicIf r.isAtomic
    | a => .ok ((Syntax.loop r.low r.high r.isLazy a).atomicIf r.isAtomic)

end Highlight.Regex
