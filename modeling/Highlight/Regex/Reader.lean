import Highlight.Regex.Repetition
import Highlight.Regex.ClassReader
import Highlight.Regex.Letters

/-!
# Reading a pattern

The grammar of patterns, by descent: alternatives, then rows, then pieces with their repetitions.
Groups are numbered by their opening parentheses, named and plain ones alike.

* `readText` -- the plain characters that come next;
* `readEscaped`, `readHead` -- what a backslash and an opening parenthesis announce;
* `readAlternatives`, `readBranch`, `readPiece`, `readGroup` -- the grammar, each step counted
  against the length of the text;
* `readSyntax` -- a whole pattern, with the number of its groups.
-/

namespace Highlight.Regex

/-! ## 1. Comments -/

/-- What follows a comment, from after its question mark and number sign on. -/
def afterComment : List Char → Except Fault (List Char)
  | [] => .error .groupCut
  | '\\' :: _ :: cs => afterComment cs
  | ')' :: cs => .ok cs
  | _ :: cs => afterComment cs

/-- What follows the comments that a text begins with. -/
def afterComments : Nat → List Char → Except Fault (List Char)
  | fuel + 1, '(' :: '?' :: '#' :: cs => do afterComments fuel (← afterComment cs)
  | _, cs => .ok cs

/-- Passes over the comments that come next. -/
def skipComments : Reading Unit := do
  let cs ← rest
  goOn (← afterComments cs.length cs)

/-! ## 2. Plain characters -/

/-- The anchor that a letter after the backslash stands for. -/
def anchorEscape? : Char → Option Anchor
  | 'A' => some .textStart
  | 'Z' => some .lastLineEnd
  | 'z' => some .textEnd
  | 'b' => some .wordEdge
  | 'B' => some .noWordEdge
  | 'G' => some .searchStart
  | _ => none

/-- The number of the group that an escape refers to, from its first digit on, and what follows:
    a number below ten, or that of a group already opened. -/
def numbered? (groups : Nat) (cs : List Char) : Option (Nat × List Char) :=
  let (n, after) := leadingDecimal cs
  if n != 0 && cs.head? != some '0' && (n ≤ 9 || n ≤ groups) then some (n, after) else none

/-- Whether what stands after a backslash stands for itself. -/
def isPlainEscape (groups : Nat) : List Char → Bool
  | [] => false
  | c :: cs =>
    if c.isDigit then (c == '8' || c == '9') && (numbered? groups (c :: cs)).isNone
    else
      match c, cs with
      | 'k', '<' :: _ | 'k', '\'' :: _ | 'p', '\x7b' :: _ | 'P', '\x7b' :: _ => false
      | 'x', _ :: _ | 'c', _ => false
      | c, _ => (classEscape? c).isNone && (anchorEscape? c).isNone && (controlOf? c).isNone

/-- The plain character that a text begins with, if it does, and what follows it. -/
def readPlain (groups : Nat) : List Char → Except Fault (Option (Char × List Char))
  | [] => .ok none
  | '\\' :: [] => .error .escapeCut
  | '\\' :: c :: cs =>
    .ok (if isPlainEscape groups (c :: cs) then some (c, cs) else none)
  | c :: cs => do
    if ['(', ')', '[', '|', '.', '^', '$'].contains c then return none
    match ← readRepeat (c :: cs) with
    | some _ => return none
    | none => return some (c, cs)

/-- The plain characters that come next, of which there are at most so many. Comments between them
    do not part them. -/
def readText : Nat → Reading (List Char)
  | 0 => return []
  | fuel + 1 => do
    skipComments
    match ← readPlain (← get).groups (← rest) with
    | none => return []
    | some (c, after) =>
      goOn after
      return c :: (← readText fuel)

/-! ## 3. Escapes -/

/-- What a character or some bytes read. Bytes that make no character are in no text. -/
def literal (flags : Flags) : Written → Syntax
  | .char c => .text [c] flags.folded
  | .byte _ => .set ⟨.empty, false, false⟩

/-- One character of a set whatever the case of letters. -/
def plainSet (s : CharSet) : Syntax := .set ⟨s, false, false⟩

/-- A reference to groups by number. A number may be that of a later group; whether the group
    exists is known only at the end. -/
def reference (flags : Flags) (groups : List Nat) : Reading Syntax := do
  return .again groups flags.folded (groups.any (← get).opened.contains)

/-- The numbers of the groups with a name, the last one first. -/
def numbersOf (name : List Char) (names : List (List Char × Nat)) : List Nat :=
  (names.filter (·.1 == name)).map (·.2)

/-- A reference by name or number, from after the opening bracket on. There is no recursion, so a
    reference to another depth of it cannot be read. -/
def readReference (flags : Flags) (close : Char) (cs : List Char) : Reading Syntax := do
  let (referred, isDeeper, after) ← readReferred close cs
  let s ← get
  goOn after
  let groups ← match referred with
    | .number 0 => throw .referenceUndefined
    | .number n => pure [n]
    | .after n => pure [s.groups + n]
    | .before n =>
      if s.groups < n then throw .referenceUndefined else pure [s.groups + 1 - n]
    | .name name =>
      match numbersOf name s.names with
      | [] => throw (.nameUndefined (String.ofList name))
      | numbers => pure numbers
  let a ← reference flags groups
  return if isDeeper then .cat a .never else a

/-- What some escaped bytes read, from the backslash of the first on. -/
def readWritten (flags : Flags) (cs : List Char) : Reading Syntax := do
  match ← readByte cs with
  | some (b, _, after) =>
    if 0x80 ≤ b && b < 0xC0 then throw .notACharacter
    let (w, after) ← readBytes none b after
    goOn after
    return literal flags w
  | none => throw .notACharacter

/-- One character of a property, from after the opening brace on. -/
def readPropertySet (negated : Bool) (cs : List Char) : Reading Syntax := do
  let (s, after) ← readProperty negated cs
  goOn after
  return plainSet s

/-- What an escape reads that is no plain character, from after the backslash on. -/
def readEscaped (flags : Flags) : List Char → Reading Syntax
  | [] => throw .escapeCut
  | c :: cs => do
    match classEscape? c, anchorEscape? c with
    | some (cls, negated), _ =>
      goOn cs
      return plainSet (classSet cls negated)
    | none, some a =>
      goOn cs
      return .anchor a
    | none, none =>
      if c.isDigit then
        match numbered? (← get).groups (c :: cs) with
        | some (n, after) =>
          goOn after
          reference flags [n]
        | none => readWritten flags ('\\' :: c :: cs)
      else
        match c, cs with
        | 'k', '<' :: cs => readReference flags '>' cs
        | 'k', '\'' :: cs => readReference flags '\'' cs
        | 'p', '\x7b' :: cs => readPropertySet false cs
        | 'P', '\x7b' :: cs => readPropertySet true cs
        | 'x', cs =>
          match ← readBraced cs with
          | some (d, after) =>
            goOn after
            return literal flags (.char d)
          | none => readWritten flags ('\\' :: 'x' :: cs)
        | _, _ =>
          let (d, after) ← readEscape (c :: cs)
          goOn after
          return literal flags (.char d)

/-! ## 4. The head of a group -/

/-- What the head of a group announces. -/
inductive GroupHead where
  /-- A group that is numbered, perhaps with a name. -/
  | capture (name : Option (List Char))
  /-- A group that only holds together. -/
  | plain
  /-- A group with flags of its own. -/
  | scoped (flags : Flags)
  /-- A group that can be read in one way only. -/
  | atomic
  /-- A look ahead or behind, perhaps negated. -/
  | look (isBehind negated : Bool)
  /-- No group: new flags for what remains of the group around it. -/
  | options (flags : Flags)

/-- The letters that switch flags, from one letter on: a minus sign switches those after it off. -/
def readOptions (flags : Flags) (on : Bool) : List Char → Except Fault (GroupHead × List Char)
  | [] => .error .groupCut
  | ':' :: cs => .ok (.scoped flags, cs)
  | ')' :: cs => .ok (.options flags, cs)
  | '-' :: cs => readOptions flags false cs
  | 'i' :: cs => readOptions { flags with folded := on } on cs
  | 'm' :: cs => readOptions { flags with dotAll := on } on cs
  | _ :: _ => .error .groupUnknown

/-- The head of a group, from after its opening parenthesis on. -/
def readHead (flags : Flags) : List Char → Except Fault (GroupHead × List Char)
  | [] => .error .groupUnclosed
  | '?' :: [] => .error .groupCut
  | '?' :: ':' :: cs => .ok (.plain, cs)
  | '?' :: '=' :: cs => .ok (.look false false, cs)
  | '?' :: '!' :: cs => .ok (.look false true, cs)
  | '?' :: '>' :: cs => .ok (.atomic, cs)
  | '?' :: '<' :: [] => .error .groupUnclosed
  | '?' :: '<' :: '=' :: cs => .ok (.look true false, cs)
  | '?' :: '<' :: '!' :: cs => .ok (.look true true, cs)
  | '?' :: '<' :: cs => do
    let (name, cs) ← readName '>' cs
    return (.capture (some name), cs)
  | '?' :: '\'' :: cs => do
    let (name, cs) ← readName '\'' cs
    return (.capture (some name), cs)
  | '?' :: ')' :: _ => .error .groupUnknown
  | '?' :: cs => readOptions flags true cs
  | cs => .ok (.capture none, cs)

/-- Opens a numbered group. -/
def openGroup (name : Option (List Char)) : Reading Nat := do
  let s ← get
  let n := s.groups + 1
  let names := (name.map fun name => (name, n)).toList ++ s.names
  set { s with groups := n, names := names, opened := n :: s.opened }
  return n

/-- Takes the parenthesis that closes a group. -/
def closeGroup : Reading Unit := do
  match ← rest with
  | ')' :: cs => goOn cs
  | _ => throw .groupUnclosed

/-! ## 5. The grammar -/

/-- Whether a row of pieces ends here. -/
def atRowEnd : Reading Bool := do
  match ← rest with
  | [] | '|' :: _ | ')' :: _ => return true
  | _ => return false

/-- A piece with the repetitions after it, the nearest first. The piece is `grouped` when it stands
    in parentheses that do nothing else; `depth` counts the repetitions as well. -/
def readRepeats : Nat → Nat → Bool → Syntax → Reading Syntax
  | 0, _, _, a => return a
  | fuel + 1, depth, grouped, a => do
    skipComments
    match ← readRepeat (← rest) with
    | none => return a
    | some (r, after) =>
      unless a.isRepeatable do throw .repeatTargetInvalid
      if maxNesting ≤ depth then throw .tooDeep
      goOn after
      readRepeats fuel (depth + 1) false (← r.apply grouped a)

mutual

/-- Alternatives, up to the parenthesis that closes the group around them or the end. -/
def readAlternatives : Nat → Nat → Flags → Reading Syntax
  | 0, _, _ => throw .tooDeep
  | fuel + 1, depth, flags => do
    if maxNesting < depth + 2 then throw .tooDeep
    let a ← readBranch fuel (depth + 2) flags
    match ← rest with
    | '|' :: cs =>
      goOn cs
      return .alt a (← readFurther fuel (depth + 2) flags)
    | _ => return a

/-- The alternatives after the first one. -/
def readFurther : Nat → Nat → Flags → Reading Syntax
  | 0, _, _ => throw .tooDeep
  | fuel + 1, depth, flags => do
    let a ← readBranch fuel depth flags
    match ← rest with
    | '|' :: cs =>
      goOn cs
      return .alt a (← readFurther fuel depth flags)
    | _ => return a.held

/-- The pieces of one alternative. Those of a group that begins it stay together. -/
def readBranch : Nat → Nat → Flags → Reading Syntax
  | 0, _, _ => throw .tooDeep
  | fuel + 1, depth, flags => do
    skipComments
    if ← atRowEnd then return .empty
    let a ← readPiece fuel depth flags
    if ← atRowEnd then return a
    return .cat a (← readRow fuel depth flags)

/-- The pieces of a row from one piece on. -/
def readRow : Nat → Nat → Flags → Reading Syntax
  | 0, _, _ => throw .tooDeep
  | fuel + 1, depth, flags => do
    let a ← readPiece fuel depth flags
    if ← atRowEnd then return a
    return a.followedBy (← readRow fuel depth flags)

/-- A piece with the repetitions after it, and the comments after those. -/
def readPiece : Nat → Nat → Flags → Reading Syntax
  | 0, _, _ => throw .tooDeep
  | fuel + 1, depth, flags => do
    let repeated := fun (grouped : Bool) (a : Syntax) => do
      readRepeats ((← rest).length + 1) depth grouped a
    match ← readText (← rest).length with
    | c :: cs => repeated false (.text (c :: cs) flags.folded)
    | [] =>
      match ← rest with
      | '(' :: cs =>
        let (head, cs) ← readHead flags cs
        goOn cs
        match head with
        | .options flags => return .group .scoped (← readAlternatives fuel depth flags)
        | .plain =>
          let a ← readAlternatives fuel depth flags
          closeGroup
          repeated true a
        | head => repeated false (← readGroup fuel depth flags head)
      | '[' :: cs =>
        goOn cs
        let (negated, s) ← readClass (2 * cs.length + 2) depth
        repeated false (Syntax.ofClass ⟨s, negated, flags.folded⟩)
      | '\\' :: cs => repeated false (← readEscaped flags cs)
      | '.' :: cs =>
        goOn cs
        repeated false
          (plainSet (if flags.dotAll then .compl .empty else .compl (.single '\n')))
      | '^' :: cs =>
        goOn cs
        repeated false (.anchor .lineStart)
      | '$' :: cs =>
        goOn cs
        repeated false (.anchor .lineEnd)
      | _ => throw .nothingToRepeat

/-- What a group holds, up to and with the parenthesis that closes it. -/
def readGroup : Nat → Nat → Flags → GroupHead → Reading Syntax
  | 0, _, _, _ => throw .tooDeep
  | fuel + 1, depth, flags, head => do
    match head with
    | .capture name =>
      let n ← openGroup name
      let a ← readAlternatives fuel depth flags
      closeGroup
      modify fun s => { s with opened := s.opened.erase n }
      return .group (.capture n) a
    | .scoped flags =>
      let a ← readAlternatives fuel depth flags
      closeGroup
      return .group .scoped a
    | .atomic =>
      let a ← readAlternatives fuel depth flags
      closeGroup
      return .group .atomic a
    | .look isBehind negated =>
      let a ← readAlternatives fuel depth flags
      closeGroup
      return if isBehind then .behind negated 0 a else .ahead negated a
    | .plain | .options _ => return .empty

end

/-! ## 6. Patterns -/

/-- The steps that reading a text of `n` characters can take: each character is a piece, or opens
    a group or an alternative. -/
def readingSteps (n : Nat) : Nat := 4 * n + 4

/-- Reads a whole pattern. -/
def readWhole (flags : Flags) (length : Nat) : Reading Syntax := do
  let a ← readAlternatives (readingSteps length) 0 flags
  match ← rest with
  | [] => return a
  | _ => throw .groupUnopened

/-- Reads a pattern: its tree and the number of its groups. With `folded`, letters count as the same
    in either case. -/
def readSyntax (cs : List Char) (folded : Bool) : Except Fault (Syntax × Nat) := do
  let (a, s) ← (readWhole ⟨folded, false⟩ cs.length).run ⟨cs, 0, [], []⟩
  return (a, s.groups)

end Highlight.Regex
