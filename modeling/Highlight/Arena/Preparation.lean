import Highlight.Arena.Basic
import Highlight.Grammar.Language

/-!
# Preparing a mode

Before a mode is compiled its shorthands are written out. The order matters: the older spellings
first, then what comes before the mode, then delimiters in several parts, then the extensions of
the language, and the keywords that it begins with last, so that an extension can still set them.

* `Prepared` -- a mode written out;
* `joinDelimiter` -- a delimiter in several parts as one pattern, and the labels by its groups;
* `leadIn` -- the mode that reads what comes before another one;
* `prepare` -- all of it.
-/

namespace Highlight.Arena

open Highlight.Grammar

/-- A mode written out: its delimiters are single patterns, whose labels stand beside it. -/
structure Prepared where
  mode : Mode
  beginScope : Option ScopeEmit
  endScope : Option ScopeEmit
  skipAfterDot : Bool

/-- Whether a flag is set. -/
def isSet (flag : Option Bool) : Bool := flag.getD false

/-- A pattern as one text. -/
def sourceText : Source → String
  | .single pattern => pattern
  | .sequence patterns => Pattern.merge patterns ""

/-! ## 1. Delimiters in several parts -/

/-- The labels of the parts by the groups that wrap them. `part` is the number of the first part,
    `before` how many groups the parts before it have. -/
def labelParts (names : Dictionary Nat (Option String)) (part before : Nat) :
    List String → Except Cause (Dictionary Nat (Option String))
  | [] => .ok .empty
  | p :: ps => do
    let inner ← groupCount p
    let labels ← labelParts names (part + 1) (before + inner) ps
    return labels.insert (part + before) (names.get? part).join

/-- The name of the first flag that is set. -/
def firstSet : List (String × Option Bool) → Option String
  | [] => none
  | (name, flag) :: flags => if isSet flag then some name else firstSet flags

/-- A delimiter as one pattern, and how its text is shown. One in several parts excludes `flags` and
    needs labels by part. -/
def joinDelimiter (pattern : Option Source) (scope : Option Scope) (key : String)
    (flags : List (String × Option Bool)) : Except Cause (Option Source × Option ScopeEmit) :=
  match pattern with
  | some (.sequence parts) =>
    match firstSet flags, scope with
    | some flag, _ => .error (.multiClassIncompatible flag key)
    | none, some (.groups names) => do
      let labels ← labelParts names 1 0 parts
      return (some (.single (Pattern.merge parts "")), some (.parts labels))
    | none, _ => .error (.malformedScope key)
  | pattern =>
    match scope with
    | some (.single label) => .ok (pattern, some (.wrap label))
    | _ => .ok (pattern, none)

/-! ## 2. What comes before a mode -/

/-- The mode that reads `before` where `original` begins right after it, and starts `original`
    there. When `original` ends, so does the mode around it. -/
def leadIn (place : Identity) (original : Mode) (before : String) : Mode :=
  let first := (original.beginPattern.map sourceText).getD ""
  let inner : Mode := { original with endsParent := some true }
  { keywords := original.keywords
    beginPattern := some (.single (Pattern.join [before, Pattern.lookahead first]))
    relevance := some 0
    starts := some ⟨("next", 0) :: place,
      { relevance := some 0, contains := some [.mode ⟨("led", 0) :: place, inner⟩] }⟩ }

/-! ## 3. Preparation -/

/-- A mode with `className` written as `scope`. -/
def spellScope (m : Mode) : Mode :=
  match m.className with
  | some label => { m with className := none, scope := some (.single label) }
  | none => m

/-- A mode with `match` written as `begin`. -/
def spellMatch (m : Mode) : Except Cause Mode :=
  match m.matchPattern with
  | some pattern =>
    if m.beginPattern.isSome || m.endPattern.isSome then .error .matchWithBeginOrEnd
    else .ok { m with matchPattern := none, beginPattern := some pattern }
  | none => .ok m

/-- A mode with what comes before it in a mode of its own. -/
def spellBefore (place : Identity) (m : Mode) : Except Cause Mode :=
  match m.beforeMatch with
  | some before =>
    if m.starts.isSome then .error .beforeMatchWithStarts
    else .ok (leadIn place { m with beforeMatch := none } before)
  | none => .ok m

/-- A mode whose labels by group stand where those of its beginning do. -/
def moveScope (m : Mode) : Mode :=
  match m.scope with
  | some (.groups labels) => { m with scope := none, beginScope := some (.groups labels) }
  | _ => m

/-- The pattern of a mode that begins with one of some words: the word stands alone, and no dot
    follows it. -/
def keywordsPattern (words : String) : String :=
  "\\b(" ++ String.intercalate "|" (Text.words words) ++ ")(?!\\.)(?=\\b|\\s)"

/-- A mode with the words that it begins with written as a pattern, and whether it had any. -/
def spellKeywords (m : Mode) : Mode × Bool :=
  match m.beginKeywords with
  | some words =>
    ({ m with
        beginKeywords := none
        beginPattern := some (.single (keywordsPattern words))
        keywords := m.keywords <|> some (.words words)
        relevance := m.relevance <|> some 0 }, true)
  | none => (m, false)

/-- A mode with what it forbids written as one pattern. -/
def spellIllegal (m : Mode) : Mode :=
  match m.illegal with
  | some (.sequence patterns) =>
    { m with illegal := some (.single (Pattern.either patterns false)) }
  | _ => m

/-- A mode with the last shorthands written out: the words that it begins with, unless it is the
    root, what it forbids, and what it is worth; and whether it had words to begin with. -/
def spellRest (parent : Option Mode) (m : Mode) : Mode × Bool :=
  let (m, skipAfterDot) := if parent.isSome then spellKeywords m else (m, false)
  let m := spellIllegal m
  ({ m with relevance := m.relevance <|> some 1 }, skipAfterDot)

/-- A mode after the extensions of its language, in order. -/
def extend (extensions : List Extension) (parent : Option Mode) (m : Mode) : Mode :=
  extensions.foldl (fun m e => e.apply m parent) m

/-- A mode written out. `place` tells it from every other mode that is compiled; `parent` is the
    mode around it, which the root does not have. -/
def prepare (extensions : List Extension) (place : Identity) (parent : Option Mode) (raw : Mode) :
    Except Cause Prepared := do
  let m ← spellMatch (spellScope raw)
  let m := moveScope (← spellBefore place m)
  let (beginPattern, beginScope) ← joinDelimiter m.beginPattern m.beginScope "beginScope"
    [("skip", m.skip), ("excludeBegin", m.excludeBegin), ("returnBegin", m.returnBegin)]
  let (endPattern, endScope) ← joinDelimiter m.endPattern m.endScope "endScope"
    [("skip", m.skip), ("excludeEnd", m.excludeEnd), ("returnEnd", m.returnEnd)]
  let m := extend extensions parent
    { m with beginPattern, endPattern, beginScope := none, endScope := none }
  let rest := spellRest parent m
  return ⟨rest.1, beginScope, endScope, rest.2⟩

end Highlight.Arena
