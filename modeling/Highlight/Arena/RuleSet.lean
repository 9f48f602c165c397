import Highlight.Fault
import Highlight.Pattern.Renumber

/-!
# Rule sets

At any point of a text several things can come next: the beginning of one of the modes inside, the
end of the mode itself, or something forbidden. These rules are merged into one pattern, so that
one search finds where any of them matches first; of the rules that match there the first counts.

* `RuleKind`, `Rule` -- a rule, and what it stands for;
* `Merged` -- the merged pattern of a list of rules, and which group of it belongs to which rule;
* `RuleSet` -- the rules of a mode with the merged patterns of all their tails. A search that takes
  up behind a rule that has been turned down looks at the tail only;
* `RuleSet.next` -- the search.
-/

namespace Highlight.Arena

open Highlight.Regex (Span Found)

/-! ## 1. Rules -/

/-- What a rule stands for. -/
inductive RuleKind where
  /-- A mode begins: the one with this number. -/
  | begins (mode : Nat)
  /-- The mode ends. -/
  | ends
  /-- Something forbidden. -/
  | illegal
  deriving DecidableEq, Repr

/-- A rule: a pattern, and what it stands for. -/
structure Rule where
  kind : RuleKind
  source : String
  deriving DecidableEq, Repr

/-- A rule that has matched: which one, where, and what its own groups have read. Group zero is
    the whole match. -/
structure RuleMatch where
  kind : RuleKind
  rule : Nat
  span : Span
  groups : List (Option Span)
  deriving DecidableEq, Repr

/-- Whether nothing was read. -/
def RuleMatch.isEmpty (m : RuleMatch) : Bool := m.span.start == m.span.stop

/-! ## 2. Merged patterns -/

/-- The cause for a pattern that cannot be read. -/
def badPattern (pattern : String) (f : Regex.Fault) : Cause :=
  .invalidPattern pattern ("Oniguruma error: " ++ f.message)

/-- What a pattern means. -/
def compilePattern (pattern : String) (folded : Bool) : Except Cause Regex :=
  (Pattern.compile pattern folded).mapError (badPattern pattern)

/-- The number of groups in a pattern. -/
def groupCount (pattern : String) : Except Cause Nat :=
  (Pattern.countGroups pattern).mapError (badPattern pattern)

/-- The place of a rule in a merged pattern: the group that wraps it, and how many groups follow
    that are its own. -/
structure Slot where
  group : Nat
  inner : Nat
  rule : Nat
  kind : RuleKind
  deriving DecidableEq, Repr

/-- Several rules in one pattern. -/
structure Merged where
  regex : Regex
  slots : List Slot
  deriving DecidableEq, Repr

/-- The places of rules, the first of which has number `rule` and is wrapped in group `group`. -/
def slotsFrom (group rule : Nat) : List Rule → Except Cause (List Slot)
  | [] => .ok []
  | r :: rs => do
    let inner ← groupCount r.source
    return ⟨group, inner, rule, r.kind⟩ :: (← slotsFrom (group + inner + 1) (rule + 1) rs)

/-- Rules in one pattern; the first of them has number `first`. -/
def Merged.build (folded : Bool) (first : Nat) (rules : List Rule) : Except Cause Merged := do
  let slots ← slotsFrom 1 first rules
  let regex ← compilePattern (Pattern.merge (rules.map (·.source)) "|") folded
  return ⟨regex, slots⟩

/-- What the groups of a rule have read: its wrapper, then its own. -/
def Slot.groupsOf (s : Slot) (m : Found) : List (Option Span) :=
  (List.range (s.inner + 1)).map fun i => m.group? (s.group + i)

/-- The match that begins first, from index `i` on. -/
def Merged.search (merged : Merged) (text : Text) (i : Nat) : Option RuleMatch := do
  let m ← merged.regex.search text i
  let s ← merged.slots.find? fun s => (m.group? s.group).isSome
  return ⟨s.kind, s.rule, m.span, s.groupsOf m⟩

/-! ## 3. Rule sets -/

/-- The merged patterns of all tails of a list of rules, each made when it is first asked for. -/
def tails (folded : Bool) (first : Nat) : List Rule → List (Thunk (Except Cause Merged))
  | [] => []
  | r :: rs =>
    Thunk.mk (fun _ => Merged.build folded first (r :: rs)) :: tails folded (first + 1) rs

/-- The rules of a mode, with the merged patterns of all their tails. -/
structure RuleSet where
  rules : List Rule
  folded : Bool
  merged : List (Thunk (Except Cause Merged)) := tails folded 0 rules
  merged_eq : merged = tails folded 0 rules := by rfl

/-- No rules at all. -/
def RuleSet.empty : RuleSet := { rules := [], folded := false }

instance : Inhabited RuleSet := ⟨.empty⟩

namespace RuleSet

/-- The merged pattern of the rules from number `k` on. -/
def mergedFrom (rs : RuleSet) (k : Nat) : Except Cause Merged :=
  match rs.merged[k]? with
  | some tail => tail.get
  | none => Merged.build rs.folded k (rs.rules.drop k)

/-- A rule set; all rules in one pattern have to make a pattern that can be read. -/
def make (rules : List Rule) (folded : Bool) : Except Cause RuleSet := do
  let rs : RuleSet := { rules, folded }
  unless rules.isEmpty do
    let _ ← rs.mergedFrom 0
  return rs

/-- The number of rules. -/
def size (rs : RuleSet) : Nat := rs.rules.length

/-- A match with the number of the first rule that the next search looks at: the one after the rule
    that matched, or the first one again after the last. -/
def advance (rs : RuleSet) (first : Nat) : Option RuleMatch → Option RuleMatch × Nat
  | some m => (some m, if m.rule + 1 == rs.size then 0 else m.rule + 1)
  | none => (none, first)

/-- The search of a rule set from index `i` on, with the number of the first rule to look at; it
    answers the match, and that number for the next search. A search of a tail counts only where it
    matches at `i` itself. Otherwise all rules are searched from the next character on. -/
def next (rs : RuleSet) (text : Text) (i first : Nat) :
    Except Cause (Option RuleMatch × Nat) := do
  if rs.rules.isEmpty then return (none, first)
  let start := if first < rs.size then first else 0
  let near := (← rs.mergedFrom start).search text i
  if start == 0 || near.any (·.span.start == i) then return rs.advance first near
  else return rs.advance first ((← rs.mergedFrom 0).search text (i + 1))

/-- How a rule is shown: its kind, and its pattern as a quoted text. -/
def showRule (r : Rule) : String :=
  let kind := match r.kind with
    | .begins mode => "Begin(" ++ toString mode ++ ")"
    | .ends => "End"
    | .illegal => "Illegal"
  "(" ++ kind ++ ", " ++ Text.quoted r.source ++ ")"

/-- How a rule set is shown. -/
def describe (rs : RuleSet) : String :=
  "[" ++ String.intercalate ", " (rs.rules.map showRule) ++ "]"

end RuleSet

end Highlight.Arena
