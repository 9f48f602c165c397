import Highlight.Regex.Node
import Highlight.Regex.Behind

/-!
# How loops go round

A loop that is small enough is written out, round by round; any other one counts its rounds. That
shows where a round reads nothing: a counted loop ends with it, even before the required rounds are
done, while the required rounds of one that is written out always take place.

* `Overview.cost` -- the number of steps that a piece is written with;
* `Overview.isWrittenOut` -- whether a loop is written out;
* `Overview.onEmpty` -- what a loop makes of a round that reads nothing;
* `Overview.toNode` -- the tree that is run.
-/

namespace Highlight.Regex

/-- Whether a group might have read nothing. -/
def Overview.mightBeEmpty (o : Overview) : Nat → Bool :=
  Syntax.groupCanBeEmpty o.groups (o.groups.length + 1)

/-- Whether a piece might read nothing. -/
def Overview.canBeEmpty (o : Overview) (a : Syntax) : Bool := a.canBeEmpty o.mightBeEmpty

/-! ## 1. Steps -/

/-- How many steps a loop may take to be written out. -/
def maxSteps : Nat := 10

/-- How many steps a text takes: characters of as many bytes each are read together. -/
def textSteps : List Char → Nat
  | [] => 0
  | [_] => 1
  | c :: d :: cs => textSteps (d :: cs) + (if c.utf8Size == d.utf8Size then 0 else 1)

/-- Whether a loop over a piece of `steps` steps is written out. -/
def isWrittenOut (low : Nat) (high : Option Nat) (isLazy : Bool) (steps : Nat) : Bool :=
  match high with
  | none => low == 0 || steps * low ≤ maxSteps
  | some high =>
    if isLazy then low == 0 && high == 1
    else high == 1 || (steps + 1) * high ≤ maxSteps

/-- How many steps a loop over a piece of `steps` steps takes, one round of which takes `round`
    steps when rounds of nothing are looked out for. -/
def loopSteps (low : Nat) (high : Option Nat) (isLazy : Bool) (steps round : Nat) : Nat :=
  if steps == 0 then 0
  else
    match high with
    | some 0 => 0
    | none =>
      if low ≤ 1 || steps * low ≤ maxSteps then
        (if low == 1 && maxSteps < steps then 1 else steps * low) + round + 2
      else round + 2
    | some high =>
      if isWrittenOut low (some high) isLazy steps then
        if isLazy then steps + 2 else steps * low + (steps + 1) * (high - low)
      else round + 2

/-- How many steps it takes to read as much as there is of one text or set without giving any back,
    where a piece does that. -/
def Syntax.wholesaleSteps? : Syntax → Option Nat
  | .loop low none false a =>
    let steps := match a with
      | .text cs _ => textSteps cs
      | _ => 1
    if low ≤ 1 && a.isStrict then some (steps * low + steps + 3) else none
  | _ => none

/-- The number of steps that a piece is written with. -/
def Overview.cost (o : Overview) : Syntax → Nat
  | .text cs _ => textSteps cs
  | .set _ | .anchor _ | .never | .again _ _ _ => 1
  | .cat a b => o.cost a + o.cost b + (if a.givesNothingBack b.first then 1 else 0)
  | .alt a b => o.cost a + o.cost b + 2
  | .group kind a =>
    match kind with
    | .capture _ => o.cost a + 2
    | .scoped | .plain => o.cost a
    | .atomic => a.wholesaleSteps?.getD (o.cost a + 2)
  | .loop low high isLazy a =>
    let steps := o.cost a
    match a, low, high, isLazy with
    | .set t, low, none, false =>
      if isDot t && (low ≤ 1 || steps * low ≤ maxSteps) then steps * low + 1
      else loopSteps low none false steps steps
    | a, low, high, isLazy =>
      loopSteps low high isLazy steps (steps + (if o.canBeEmpty a then 2 else 0))
  | .ahead negated a => o.cost a + (if negated then 5 else 2)
  | .behind negated _ a => o.cost a + (if negated then 6 else 3)

/-! ## 2. Rounds that read nothing -/

/-- Whether a piece remembers something, apart from what it looks at. -/
def Syntax.remembers : Syntax → Bool
  | .cat a b | .alt a b => a.remembers || b.remembers
  | .group (.capture _) _ => true
  | .group _ a => a.remembers
  | .loop _ high _ a => high != some 0 && a.remembers
  | _ => false

/-- The groups of a round whose change is looked out for: those that are `fresh`, and that no inner
    loop and no look for a text looks out for already. -/
def Overview.watched (o : Overview) (fresh : Bool) : Syntax → List Nat
  | .cat a b => o.watched fresh a ++ o.watched fresh b
  | .alt a b => o.watched true a ++ o.watched true b
  | .group (.capture n) a => (if fresh then [n] else []) ++ o.watched fresh a
  | .group _ a => o.watched fresh a
  | .loop low high _ a =>
    if o.canBeEmpty a then [] else o.watched (fresh || high != some low) a
  | .ahead true a | .behind true _ a => o.watched true a
  | _ => []

/-- What a loop over a piece makes of a round that reads nothing. It goes on where the round changes
    a group that something outside the loop refers to. -/
def Overview.onEmpty (o : Overview) (fresh : Bool) (a : Syntax) : EmptyRound :=
  if !o.canBeEmpty a then .never
  else if !a.remembers then .ends []
  else
    let inside := a.references
    .ends ((o.watched fresh a).filter fun n => inside.count n < o.references.count n)

/-! ## 3. The tree -/

/-- The tree that is run. A group is `fresh` in what may be read in another way or not at all. -/
def Overview.toNode (o : Overview) (fresh : Bool) : Syntax → Node
  | .text cs _ => .text cs
  | .set t => .set t
  | .anchor a => .anchor a
  | .never => .never
  | .cat a b => .seq (o.toNode fresh a) (o.toNode fresh b)
  | .alt a b => .alt (o.toNode true a) (o.toNode true b)
  | .group (.capture n) a => .group n fresh (o.toNode fresh a)
  | .group .atomic a => .atomic (o.toNode fresh a)
  | .group _ a => o.toNode fresh a
  | .loop low high isLazy a =>
    let steps := o.cost a
    let fresh := fresh || high != some low
    if steps == 0 then .text []
    else
      .loop low high isLazy (!isWrittenOut low high isLazy steps) (o.onEmpty fresh a)
        (o.toNode fresh a)
  | .ahead negated a => .ahead negated (o.toNode (fresh || negated) a)
  | .behind negated width a => .behind negated width (o.toNode (fresh || negated) a)
  | .again groups folded _ => .again groups folded

end Highlight.Regex
