import Highlight.Regex.Heads
import Highlight.Regex.Letters
import Highlight.Regex.Fault

/-!
# Looking behind

To look behind, a match goes back over as many characters as the pattern there has. So that pattern
needs a width; alternatives of different widths are told apart at the top only.

* `Syntax.fitsBehind` -- what may stand in a look behind at all;
* `Syntax.shortened` -- a pattern whose first loops are as short as they can be, which is enough
  when one looks for its end;
* `Width`, `Syntax.width` -- how many characters a piece reads;
* `Overview.settle` -- a pattern all of whose looks behind have a width.
-/

namespace Highlight.Regex

/-! ## 1. What may stand there -/

/-- Whether a piece may stand in a look behind, which may itself be `negated`. One that is negated
    remembers nothing, and only such a one has others inside. -/
def Syntax.fitsBehind (negated : Bool) : Syntax → Bool
  | .text _ _ | .set _ | .again _ _ _ | .never => true
  | .anchor a => a != .textEnd && a != .lastLineEnd
  | .cat a b | .alt a b => a.fitsBehind negated && b.fitsBehind negated
  | .loop _ _ _ a => a.fitsBehind negated
  | .group (.capture _) a => !negated && a.fitsBehind negated
  | .group _ a => a.fitsBehind negated
  | .ahead _ _ => false
  | .behind inner _ a => (negated || !inner) && a.fitsBehind inner

/-! ## 2. Shorter loops -/

/-- Whether a piece is one text, set or reference. -/
def Syntax.isSimple : Syntax → Bool
  | .text _ _ | .set _ | .again _ _ _ => true
  | _ => false

/-- A row whose first loops are as short as they can be. Where that is no round at all, the next
    piece comes first. -/
def Syntax.shortenedRow : Syntax → Syntax
  | .loop low high isLazy a => .loop low (if a.isSimple then some low else high) isLazy a
  | .cat a b =>
    match a with
    | .loop low high isLazy c =>
      if !c.isSimple || a.givesNothingBack b.first then .cat (.loop low high isLazy c) b
      else .cat (.loop low (some low) isLazy c) (if low == 0 then b.shortenedRow else b)
    | a => .cat a b
  | a => a

/-- Alternatives whose first loops are as short as they can be. -/
def Syntax.shortenedEach : Syntax → Syntax
  | .alt a b => .alt a.shortenedRow b.shortenedEach
  | a => a.shortenedRow

/-- A pattern whose first loops, in each of its alternatives, are as short as they can be. -/
def Syntax.shortened : Syntax → Syntax
  | .group .plain a => .group .plain a.shortenedEach
  | a => a.shortenedEach

/-! ## 3. Widths -/

/-- How many characters a piece reads. -/
structure Width where
  least : Nat
  most : Option Nat
  /-- The piece reads text of its own, and remembers none of it. -/
  isSure : Bool
  deriving DecidableEq, Repr

namespace Width

/-- A width that is known. -/
def exactly (n : Nat) : Width := ⟨n, some n, true⟩

/-- The width of a piece that reads nothing and yet matters. -/
def nothing : Width := ⟨0, some 0, false⟩

/-- Whether only one width is possible. -/
def isFixed (w : Width) : Bool := w.most == some w.least

/-- The width of two pieces in a row. -/
def add (v w : Width) : Width :=
  let most := match v.most, w.most with
    | some m, some n => some (m + n)
    | _, _ => none
  ⟨v.least + w.least, most, v.isSure && w.isSure⟩

/-- The width of a piece, or else of another one. -/
def either (v w : Width) : Width :=
  let most := match v.most, w.most with
    | some m, some n => some (max m n)
    | _, _ => none
  let isSure :=
    if w.least < v.least then w.isSure
    else if w.least == v.least then v.isSure || w.isSure
    else v.isSure
  ⟨min v.least w.least, most, isSure⟩

/-- The width of a piece that is repeated. -/
def times (w : Width) (low : Nat) (high : Option Nat) : Width :=
  match high with
  | some 0 => exactly 0
  | some n => ⟨w.least * low, w.most.map (· * n), w.isSure⟩
  | none => ⟨w.least * low, none, w.isSure⟩

end Width

/-- How many characters a piece reads, given how many the groups have read. -/
def Syntax.width (inner : Nat → Width) : Syntax → Width
  | .text cs _ => .exactly cs.length
  | .set _ => .exactly 1
  | .cat a b => (a.width inner).add (b.width inner)
  | .alt a b => (a.width inner).either (b.width inner)
  | .group (.capture _) a => { a.width inner with isSure := false }
  | .group _ a => a.width inner
  | .loop low high _ a => (a.width inner).times low high
  | .again groups _ isInner =>
    match isInner, groups.map inner with
    | false, w :: ws =>
      let unsure := fun w : Width => { w with isSure := w.isSure && w.isFixed }
      ws.foldl (fun v w => v.either (unsure w)) (unsure w)
    | _, _ => .nothing
  | .never => .exactly 0
  | .anchor _ | .ahead _ _ | .behind _ _ _ => .nothing

/-- How many characters a group has read. It may have references of its own; `depth` many lead
    on. -/
def groupWidth (groups : List (Nat × Syntax)) : Nat → Nat → Width
  | 0, _ => ⟨0, none, false⟩
  | depth + 1, n =>
    match groups.lookup n with
    | some a => { a.width (groupWidth groups depth) with isSure := false }
    | none => ⟨0, none, false⟩

/-! ## 4. Settling -/

/-- What is known of a pattern as a whole. -/
structure Overview where
  /-- The groups that remember what they have read. -/
  groups : List (Nat × Syntax)
  /-- The groups that are referred to. -/
  references : List Nat
  /-- The groups with letters that count as the same in either case. -/
  caseless : List Nat

/-- What is known of a pattern as a whole, given the groups in which case does not count. -/
def Syntax.overview (caseless : List Nat) (a : Syntax) : Overview :=
  ⟨a.captures, a.references, caseless⟩

/-- Whether a piece reads letters that count as the same in either case. -/
def Syntax.isCaseless : Syntax → Bool
  | .text _ folded => folded
  | .cat a b | .alt a b => a.isCaseless || b.isCaseless
  | .group _ a => a.isCaseless
  | .loop _ high _ a => high != some 0 && a.isCaseless
  | _ => false

/-- The groups in which case does not count, as a pattern is written. -/
def Syntax.caselessGroups (a : Syntax) : List Nat :=
  (a.captures.filter fun g => g.2.isCaseless).map (·.1)

/-- The groups whose widths make up that of a piece. -/
def Syntax.measured : Syntax → List Nat
  | .cat a b | .alt a b => a.measured ++ b.measured
  | .group _ a => a.measured
  | .loop _ high _ a => if high == some 0 then [] else a.measured
  | .again groups _ isInner => if isInner then [] else groups
  | _ => []

/-- How many characters a group has read. -/
def Overview.widthOf (o : Overview) : Nat → Width := groupWidth o.groups (o.groups.length + 1)

/-- The alternatives of a pattern. -/
def Syntax.alternatives : Syntax → List Syntax
  | .alt a b => a :: b.alternatives
  | a => [a]

/-- A pattern without the group that only holds its alternatives together. -/
def Syntax.unheld : Syntax → Syntax
  | .group .plain a => a
  | a => a

/-- The greatest width that a look behind can have. -/
def maxWidth : Nat := 65535

/-- A look behind with its width, for a pattern of `size` pieces. What may read nothing and
    remembers nothing is there always. Alternatives of different widths, of which all but the first
    have only one, become looks behind of their own. A group whose number is above `known` and in
    which case does not count has no width yet. -/
def Overview.lookBehind (o : Overview) (known : Nat) (negated : Bool) :
    Nat → Syntax → Except Fault Syntax
  | 0, _ => .error .lookBehindInvalid
  | size + 1, a => do
    let a := a.shortened
    if a.measured.any fun n => known < n && o.caseless.contains n then throw .lookBehindInvalid
    let w := a.width o.widthOf
    if maxWidth < w.least || w.most.any (maxWidth < ·) then throw .lookBehindInvalid
    let isReferred := a.captures.any fun g => o.references.contains g.1
    if w.least == 0 && w.isSure && !isReferred then
      return if negated then .never else .empty
    if w.isFixed then return .behind negated w.least a
    match a.unheld.alternatives with
    | first :: b :: bs =>
      unless (b :: bs).all (fun b => (b.width o.widthOf).isFixed) do throw .lookBehindInvalid
      let first ← o.lookBehind known negated size first
      let others ← (b :: bs).mapM (o.lookBehind known negated size)
      return if negated then .row (first :: others) else first.anyOf others
    | _ => throw .lookBehindInvalid

/-- How many pieces a pattern has. -/
def Syntax.size : Syntax → Nat
  | .cat a b | .alt a b => a.size + b.size + 1
  | .group _ a | .loop _ _ _ a | .ahead _ a | .behind _ _ a => a.size + 1
  | _ => 1

/-- A pattern all of whose looks behind have a width. `before` is how many groups are opened before
    it. -/
def Overview.settle (o : Overview) (before : Nat) : Syntax → Except Fault Syntax
  | .cat a b => do return .cat (← o.settle before a) (← o.settle (before + a.captures.length) b)
  | .alt a b => do return .alt (← o.settle before a) (← o.settle (before + a.captures.length) b)
  | .group (.capture n) a => do return .group (.capture n) (← o.settle n a)
  | .group kind a => do return .group kind (← o.settle before a)
  | .loop low high isLazy a => do return .loop low high isLazy (← o.settle before a)
  | .ahead negated a => do return .ahead negated (← o.settle before a)
  | .behind negated _ a => do
    unless a.fitsBehind negated do throw .lookBehindInvalid
    let known := before + a.captures.length
    let a ← o.settle before a
    o.lookBehind known negated (a.size + 1) a
  | a => return a

end Highlight.Regex
