/-!
# Sets of code points as ascending ranges

A Unicode property is a list of a few hundred ranges. This file fixes how such a list is read:

* `RangeTable` -- ascending, disjoint, inclusive ranges of code points;
* `RangeTable.contains` -- membership, by halving the table;
* `CaseRun` -- a stretch of code points that all move by the same distance, every one of them or
  every second one: what the case mappings of the alternating alphabets look like.
-/

namespace Highlight.Unicode

/-! ## 1. Range tables -/

/-- Ascending, disjoint, inclusive ranges of code points. -/
structure RangeTable where
  ranges : Array (Nat × Nat)

/-- Whether `n` lies in one of the ranges with index in `lo ..< hi`. Every round halves the
    stretch, so `fuel` equal to its length is never used up. -/
def RangeTable.within (rs : Array (Nat × Nat)) (n : Nat) : Nat → Nat → Nat → Bool
  | 0, _, _ => false
  | fuel + 1, lo, hi =>
    if lo < hi then
      let mid := (lo + hi) / 2
      match rs[mid]? with
      | none => false
      | some (first, last) =>
        if n < first then RangeTable.within rs n fuel lo mid
        else if last < n then RangeTable.within rs n fuel (mid + 1) hi
        else true
    else false

/-- Whether the code point `n` is in the set. -/
def RangeTable.contains (t : RangeTable) (n : Nat) : Bool :=
  RangeTable.within t.ranges n t.ranges.size 0 t.ranges.size

/-! ## 2. Runs of a case mapping -/

/-- The code points `first, first + step, …, last`, each of which maps to itself plus `shift`. -/
structure CaseRun where
  first : Nat
  last : Nat
  step : Nat
  shift : Int

/-- Whether the run maps `n`. -/
def CaseRun.covers (r : CaseRun) (n : Nat) : Bool :=
  r.first ≤ n && n ≤ r.last && (n - r.first) % r.step == 0

/-- Where the run sends a code point that it covers. -/
def CaseRun.apply (r : CaseRun) (n : Nat) : Nat := (Int.ofNat n + r.shift).toNat

/-- Where a list of runs sends `n`; a code point that no run covers stays. -/
def mapThrough : List CaseRun → Nat → Nat
  | [], n => n
  | r :: rs, n => if r.covers n then r.apply n else mapThrough rs n

/-- The code points other than `n` itself that a list of runs sends to `n`. -/
def sources : List CaseRun → Nat → List Nat
  | [], _ => []
  | r :: rs, n =>
    let m := (Int.ofNat n - r.shift).toNat
    if r.covers m && r.apply m == n then m :: sources rs n else sources rs n

end Highlight.Unicode
