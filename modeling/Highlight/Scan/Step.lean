import Highlight.Scan.Buffer

/-!
# One step of a run

A step takes the rule that matches next: a mode opens, open modes close, or the text has something
forbidden.

* `startMode` -- a mode opens;
* `beginStep` -- the beginning of a mode has matched. A hook, or a dot before a keyword, can turn it
  down; then the rules after it are tried at the same place;
* `endOf` -- which modes an end closes, going outward from the innermost;
* `endStep` -- an end has matched;
* `step` -- all of it.
-/

namespace Highlight.Scan

open Highlight.Arena (ArenaMode RuleMatch RuleKind ScopeEmit)
open Highlight.Grammar (Hook HookData MatchView Verdict)
open Highlight.Regex (Span)
open Highlight.Token (Event)

/-! ## 1. Moving on -/

/-- Passes one character and holds it back; at the end of the text, passes the end. -/
def passChar (s : Scene) (i : Nat) (r : Run) : Run :=
  { (r.hold (s.text.slice i (i + 1))) with index := i + 1 }

/-- A match has been turned down: the rules after it are tried at the same place, and when there are
    none the character is passed. -/
def turnDown (s : Scene) (m : RuleMatch) (r : Run) : Run :=
  if r.firstRule == 0 then passChar s m.span.start r
  else { r with resumes := true, index := m.span.start }

/-- What a match has read. -/
def lexeme (s : Scene) (m : RuleMatch) : String := s.text.slice m.span.start m.span.stop

/-- Asks a hook about a match. -/
def askHook (s : Scene) (hook : Hook) (m : RuleMatch) (data : HookData) :
    Attempt (Bool × HookData) :=
  let reply := hook.call ⟨s.text, m.span.start, m.groups⟩ data
  match reply.verdict with
  | .proceed => ⟨reply.notes, .ok (true, reply.data)⟩
  | .ignore => ⟨reply.notes, .ok (false, reply.data)⟩
  | .panic message => ⟨reply.notes, .error (s.fault (.hookPanicked message) m.span.start)⟩

/-- Asks a hook that may be missing; without one every match counts. -/
def askHook? (s : Scene) (hook : Option Hook) (m : RuleMatch) (data : HookData) :
    Attempt (Bool × HookData) :=
  match hook with
  | some hook => askHook s hook m data
  | none => pure (true, data)

/-! ## 2. Modes open -/

/-- Tells one group of a delimiter: under its label, or as plain text. -/
def tellPart (s : Scene) (m : RuleMatch) (r : Run) (part : Nat × Option String) : Run :=
  match m.groups[part.1]? with
  | some (some span) =>
    let text := s.text.slice span.start span.stop
    match part.2 with
    | some label => r.emitLabelled s.arena text label
    | none => tellKeywords s text r
  | _ => r

/-- Tells the groups of a delimiter, in the order of their numbers. What has been held back is
    dropped once a group without a label has been told. -/
def tellParts (s : Scene) (m : RuleMatch) (labels : Dictionary Nat (Option String)) (r : Run) :
    Run :=
  labels.entries.foldl (tellPart s m) r

/-- A mode opens. Its label comes first, then the label of its delimiter. -/
def startMode (s : Scene) (id : Nat) (m : RuleMatch) (data : HookData) (r : Run) : Run :=
  let mode := s.arena.mode id
  let r := r.openMode s.arena mode
  let r := match mode.beginScope with
    | some (.wrap label) => ({ r with buffer := "" } : Run).emitLabelled s.arena r.buffer label
    | some (.parts labels) => { tellParts s m labels r with buffer := "" }
    | none => r
  { r with frames := ⟨id, data⟩ :: r.frames }

/-- The text before a mode that opens is told, and its delimiter is held back for the mode; a mode
    that is skipped tells nothing, one that excludes its beginning leaves it outside, and one that
    returns it leaves it to be read again. -/
def holdBegin (s : Scene) (mode : ArenaMode) (lexeme : String) (r : Run) : Attempt Run :=
  if mode.skip then pure (r.hold lexeme)
  else do
    let r ← flush s (if mode.excludeBegin then r.hold lexeme else r)
    return if mode.returnBegin || mode.excludeBegin then r else { r with buffer := lexeme }

/-- Whether a dot stands before an index. -/
def afterDot (text : Text) (i : Nat) : Bool := i != 0 && text[i - 1]? == some '.'

/-- The beginning of a mode has matched. -/
def beginStep (s : Scene) (id : Nat) (m : RuleMatch) (r : Run) : Attempt Run := do
  let mode := s.arena.mode id
  if mode.skipAfterDot && afterDot s.text m.span.start then return turnDown s m r
  let (counts, data) ← askHook? s mode.onBegin m .empty
  if !counts then return turnDown s m r
  let r := startMode s id m data (← holdBegin s mode (lexeme s m) r)
  return { r with index := if mode.returnBegin then m.span.start else m.span.stop }

/-! ## 3. Modes close -/

/-- How many modes close with the innermost of these: a mode that ends its parent takes the next one
    along, but never the root. -/
def closingWith (arena : Arena) : List Frame → Nat
  | [] => 0
  | f :: rest =>
    if (arena.mode f.mode).endsParent && !rest.isEmpty then closingWith arena rest + 1 else 1

/-- Whether the own end of a mode matches at an index. -/
def endsAt (s : Scene) (mode : ArenaMode) (i : Nat) : Bool :=
  mode.endRegex.any fun re => (re.matchAt s.text i).isSome

/-- Asks a mode whether a match is its own end. -/
def askEnd (s : Scene) (mode : ArenaMode) (m : RuleMatch) (data : HookData) :
    Attempt (Bool × HookData) :=
  if endsAt s mode m.span.start then askHook? s mode.onEnd m data else pure (false, data)

/-- How many of the innermost modes an end closes, if it closes any, and the frames with what their
    hooks keep now. A mode whose own end this is not passes it on when it ends with its parent. -/
def endOf (s : Scene) (m : RuleMatch) : List Frame → Attempt (Option Nat × List Frame)
  | [] => pure (none, [])
  | f :: rest => do
    let mode := s.arena.mode f.mode
    let (counts, data) ← askEnd s mode m f.data
    let f := { f with data }
    if counts then return (some (closingWith s.arena (f :: rest)), f :: rest)
    else if mode.endsWithParent then
      let (count, rest) ← endOf s m rest
      return (count.map (· + 1), f :: rest)
    else return (none, f :: rest)

/-- The text before an end is told with its delimiter, which can have a label of its own, be left
    outside, or be left to be read again. -/
def holdEnd (s : Scene) (mode : ArenaMode) (m : RuleMatch) (r : Run) : Attempt Run := do
  let text := lexeme s m
  match mode.endScope with
  | some (.wrap label) => return (← flush s r).emitLabelled s.arena text label
  | some (.parts labels) => return { tellParts s m labels (← flush s r) with buffer := "" }
  | none =>
    if mode.skip then return r.hold text
    else
      let r ← flush s (if mode.returnEnd || mode.excludeEnd then r else r.hold text)
      return if mode.excludeEnd then { r with buffer := text } else r

/-- Closes the innermost mode. It adds to the relevance unless it was skipped or its text belonged
    to another language. -/
def closeFrame (arena : Arena) (f : Frame) (r : Run) : Run :=
  let mode := arena.mode f.mode
  let r := r.closeMode mode
  if mode.skip || mode.subLanguage.isSome then r
  else { r with relevance := r.relevance + mode.relevance }

/-- Closes modes, from the innermost outward: the last one that was closed, and the run. -/
def closeFrames (arena : Arena) : Nat → Option Nat → Run → Option Nat × Run
  | 0, ended, r => (ended, r)
  | n + 1, ended, r =>
    match r.frames with
    | [] => (ended, r)
    | f :: rest => closeFrames arena n (some f.mode) (closeFrame arena f { r with frames := rest })

/-- An end has matched. One that closes nothing is passed by one character. -/
def endStep (s : Scene) (m : RuleMatch) (r : Run) : Attempt Run := do
  let (count, frames) ← endOf s m r.frames
  let r := { r with frames }
  match count with
  | none => return passChar s m.span.start r
  | some n =>
    let mode := s.top r
    let (ended, r) := closeFrames s.arena n none (← holdEnd s mode m r)
    let r := match ended.bind fun id => (s.arena.mode id).starts with
      | some next => startMode s next m .empty r
      | none => r
    return { r with index := if mode.returnEnd then m.span.start else m.span.stop }

/-! ## 4. Any rule -/

/-- Whether a match is an empty end right where a mode has just begun. -/
def isEmptyMode (m : RuleMatch) : Option (RuleKind × Nat) → Bool
  | some (.begins _, i) => m.kind == .ends && i == m.span.start && m.isEmpty
  | _ => false

/-- What is forbidden is passed as plain text. -/
def passIllegal (s : Scene) (m : RuleMatch) (r : Run) : Run :=
  if m.isEmpty then passChar s m.span.start r
  else { (r.hold (lexeme s m)) with index := m.span.stop }

/-- One step of a run: the rule that matches next. -/
def step (s : Scene) (m : RuleMatch) (r : Run) : Attempt Run :=
  let r := r.hold (s.text.slice r.index m.span.start)
  if isEmptyMode m r.last then
    if s.options.safeMode then pure (passChar s m.span.start r)
    else .fail (s.fault (.zeroWidthMatch s.arena.name) m.span.start)
  else
    let r := { r with last := some (m.kind, m.span.start) }
    match m.kind with
    | .begins id => beginStep s id m r
    | .ends => endStep s m r
    | .illegal =>
      if s.ignoreIllegals then pure (passIllegal s m r)
      else
        .fail (s.fault (.illegalLexeme (lexeme s m) (s.top r).shownLabel) m.span.start)

end Highlight.Scan
