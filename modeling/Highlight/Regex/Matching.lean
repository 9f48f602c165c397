import Highlight.Regex.Node
import Highlight.Text.Slice

/-!
# Matching a tree against a text

Matching goes by trial: a node is handed a place in the text and what is to come after it, tries
its ways in order, and takes the first one after which the rest succeeds.

* `Span`, `Mark`, `Captures` -- what the groups of a pattern have read, and are reading;
* `Place` -- where a match stands;
* `Round` -- what a loop makes of a round that has been read;
* `Node.run` -- the trial of a node, by structural recursion on the node; only loops count. An
  unbounded one counts the characters left, since a round that reads nothing ends it, unless it is
  one of the few that change what a group has read.
-/

namespace Highlight.Regex

/-! ## 1. Where a match stands -/

/-- A stretch of a text: from index `start` up to index `stop`. -/
structure Span where
  start : Nat
  stop : Nat
  deriving DecidableEq, Repr

/-- A group has been opened or closed. -/
structure GroupMark where
  group : Nat
  isOpening : Bool
  /-- Where the group begins. -/
  start : Nat
  /-- Where the group ends; while it is being read, where it ended before, if it keeps that. -/
  stop : Option Nat
  deriving DecidableEq, Repr

/-- The groups opened and closed so far, the latest first. -/
abbrev Captures := List GroupMark

/-- What a group has read last; nothing while a fresh one is being read. -/
def Captures.find? (cs : Captures) (index : Nat) : Option Span :=
  match cs with
  | [] => none
  | m :: cs => if m.group == index then m.stop.map (⟨m.start, ·⟩) else Captures.find? cs index

/-- Where a match stands: the index of the next character, and what the groups have read. -/
structure Place where
  pos : Nat
  captures : Captures
  deriving DecidableEq, Repr

/-- The same place after some characters more. -/
def Place.move (p : Place) (n : Nat) : Place := { p with pos := p.pos + n }

/-- The place after opening a group. -/
def Place.beginGroup (p : Place) (group : Nat) (fresh : Bool) : Place :=
  let stop := if fresh then none else (p.captures.find? group).map Span.stop
  { p with captures := ⟨group, true, p.pos, stop⟩ :: p.captures }

/-- The place after closing a group that was opened at index `start`. -/
def Place.endGroup (p : Place) (group start : Nat) : Place :=
  { p with captures := ⟨group, false, start, some p.pos⟩ :: p.captures }

/-- What is to come after a node: the place where everything has been read, if the rest
    succeeds. -/
abbrev Rest := Place → Option Place

/-! ## 2. Conditions on a position -/

/-- Whether a word character stands at the index. -/
def wordAt (text : Text) (i : Nat) : Bool := (text[i]?).any Unicode.isWord

/-- Whether a word character stands before the index. -/
def wordBefore (text : Text) (i : Nat) : Bool := i != 0 && wordAt text (i - 1)

/-- Whether an anchor holds at an index, in a search that began at `origin`. -/
def Anchor.holds (text : Text) (origin i : Nat) : Anchor → Bool
  | .lineStart => i == 0 || (text[i - 1]? == some '\n' && i < text.size)
  | .lineEnd => i == text.size || text[i]? == some '\n'
  | .textStart => i == 0
  | .textEnd => i == text.size
  | .lastLineEnd => i == text.size || (text[i]? == some '\n' && i + 1 == text.size)
  | .wordEdge => wordBefore text i != wordAt text i
  | .noWordEdge => wordBefore text i == wordAt text i
  | .searchStart => i == origin

/-- Whether these characters stand at the index. -/
def standsAt (text : Text) : List Char → Nat → Bool
  | [], _ => true
  | c :: cs, i => text[i]? == some c && standsAt text cs (i + 1)

/-! ## 3. Loops -/

/-- What a loop makes of a round that has been read. -/
inductive Round where
  /-- It goes on. -/
  | next
  /-- It ends, and the rest follows. -/
  | last
  /-- The round does not count as a way to go on. -/
  | none
  deriving DecidableEq, Repr

/-- What a group had read before it was opened by the latest mark: whether it was something, and
    otherwise whether that was at index `pos`. -/
def changedBy (pos : Nat) (m : GroupMark) (before : Captures) : Round :=
  match before.find? m.group with
  | .none => .next
  | some s => if s.start != s.stop then .next else if s.stop != pos then .none else .last

/-- What a loop makes of a round of nothing, by the groups opened in it, the latest first: it goes
    on if one of them had read nothing yet or something else than nothing; nor does the round count
    if one had read nothing elsewhere. -/
def emptyRound (groups : List Nat) (pos : Nat) : Nat → Captures → Round
  | 0, _ => .last
  | _ + 1, [] => .last
  | n + 1, m :: before =>
    let earlier := emptyRound groups pos n before
    if earlier == .next || !m.isOpening || !groups.contains m.group then earlier
    else
      match changedBy pos m before with
      | .last => earlier
      | r => r

/-- What a loop makes of a round from `p` to `q`. -/
def EmptyRound.judge (e : EmptyRound) (p q : Place) : Round :=
  match e with
  | .never => .next
  | .ends groups =>
    if p.pos != q.pos then .next
    else if groups.isEmpty then .last
    else emptyRound groups q.pos (q.captures.length - p.captures.length) q.captures

/-- Goes on after a round from `p` to `q`, or ends the loop. -/
def afterRound (e : EmptyRound) (p : Place) (next k : Rest) (q : Place) : Option Place :=
  match e.judge p q with
  | .next => next q
  | .last => k q
  | .none => none

/-- Up to `n` rounds of `body`, as many as possible first. -/
def greedy (e : EmptyRound) (body : Place → Rest → Option Place) :
    Nat → Place → Rest → Option Place
  | 0, p, k => k p
  | n + 1, p, k => body p (afterRound e p (fun q => greedy e body n q k) k) <|> k p

/-- Up to `n` rounds of `body`, as few as possible first. -/
def reluctant (e : EmptyRound) (body : Place → Rest → Option Place) :
    Nat → Place → Rest → Option Place
  | 0, p, k => k p
  | n + 1, p, k => k p <|> body p (afterRound e p (fun q => reluctant e body n q k) k)

/-- Exactly `n` rounds of `body`, then `next`; a round that ends the loop is followed by `k`. -/
def rounds (e : EmptyRound) (body : Place → Rest → Option Place) (next k : Rest) :
    Nat → Place → Option Place
  | 0, p => next p
  | n + 1, p => body p (afterRound e p (rounds e body next k n) k)

/-- How many rounds a loop may add to the required ones, from a place on. Of an unbounded number
    each one reads a character, or changes what a group has read. -/
def roundsLeft (text : Text) (e : EmptyRound) (low : Nat) (high : Option Nat) (p : Place) : Nat :=
  match high with
  | some n => n - low
  | none =>
    let changes := match e with
      | .never => 0
      | .ends groups => groups.length
    (text.size + 1 - p.pos) * (changes + 2)

/-- A loop from a place on. -/
def runLoop (text : Text) (low : Nat) (high : Option Nat) (isLazy counted : Bool) (e : EmptyRound)
    (body : Place → Rest → Option Place) (p : Place) (k : Rest) : Option Place :=
  let required := if counted then e else .never
  let further := if counted || high.isNone then e else .never
  let goOn := fun q =>
    let n := roundsLeft text e low high q
    if isLazy then reluctant further body n q k else greedy further body n q k
  rounds required body goOn k low p

/-! ## 4. Reading again -/

/-- Whether so many bytes stand from an index on. -/
def hasBytes (text : Text) (i bytes : Nat) : Bool :=
  bytes ≤ Text.byteLength (text.extract i (i + bytes)).toList

/-- The index after the characters that stand at index `j` and are those of a list. -/
def sameFrom (text : Text) : List Char → Nat → Option Nat
  | [], j => some j
  | c :: cs, j => if text[j]? == some c then sameFrom text cs (j + 1) else none

/-- The index after the characters that stand at index `j` and fold to what those of a list fold
    to. They take at most `room` bytes, except that characters of ASCII may follow. -/
def foldedFrom (text : Text) : List Char → Nat → Nat → Option Nat
  | [], _, j => some j
  | c :: cs, room, j =>
    match text[j]? with
    | none => none
    | some d =>
      if (d.utf8Size ≤ room || d.toNat < 0x80) && Unicode.fold c == Unicode.fold d then
        foldedFrom text cs (room - d.utf8Size) (j + 1)
      else none

/-- The index after reading again from index `j` what the first of the groups has read that took
    part and whose text comes next. A text shorter than what one of them has read ends the trial. -/
def readAgain (text : Text) (folded : Bool) (captures : Captures) (j : Nat) :
    List Nat → Option Nat
  | [] => none
  | g :: gs =>
    match captures.find? g with
    | none => readAgain text folded captures j gs
    | some s =>
      let cs := (text.extract s.start s.stop).toList
      let bytes := Text.byteLength cs
      if !hasBytes text j bytes then none
      else
        let after := if folded then foldedFrom text cs bytes j else sameFrom text cs j
        after <|> readAgain text folded captures j gs

/-! ## 5. Running a node -/

/-- The first way to read a node from a place after which the rest succeeds. -/
def Node.run (text : Text) (origin : Nat) : Node → Place → Rest → Option Place
  | .text cs, p, k => if standsAt text cs p.pos then k (p.move cs.length) else none
  | .set t, p, k =>
    match text[p.pos]? with
    | some c => if t.accepts c then k (p.move 1) else none
    | none => none
  | .anchor a, p, k => if a.holds text origin p.pos then k p else none
  | .never, _, _ => none
  | .seq a b, p, k => a.run text origin p fun q => b.run text origin q k
  | .alt a b, p, k => a.run text origin p k <|> b.run text origin p k
  | .group index fresh a, p, k =>
    a.run text origin (p.beginGroup index fresh) fun q => k (q.endGroup index p.pos)
  | .atomic a, p, k =>
    match a.run text origin p some with
    | some q => k q
    | none => none
  | .loop low high isLazy counted onEmpty a, p, k =>
    runLoop text low high isLazy counted onEmpty (a.run text origin) p k
  | .ahead negated a, p, k =>
    match a.run text origin p some, negated with
    | some q, false => k { q with pos := p.pos }
    | none, true => k p
    | _, _ => none
  | .behind negated width a, p, k =>
    let found :=
      if p.pos < width then none else a.run text origin { p with pos := p.pos - width } some
    match found, negated with
    | some q, false => k { q with pos := p.pos }
    | none, true => k p
    | _, _ => none
  | .again groups folded, p, k =>
    match readAgain text folded p.captures p.pos groups with
    | some j => k { p with pos := j }
    | none => none

end Highlight.Regex
