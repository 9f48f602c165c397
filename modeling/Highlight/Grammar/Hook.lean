import Highlight.Regex.Matching
import Highlight.Dictionary

/-!
# Hooks

A grammar can attach a hook to where a mode begins or ends. The hook sees the match, may keep texts
for the mode that is being opened, and says whether the match counts.

* `MatchView` -- what a hook sees;
* `HookData` -- what it keeps: texts by name, for one activation of a mode;
* `HookReply` -- what it answers: its verdict, the data as it leaves them, and what it notes down
  for whoever looks on.
-/

namespace Highlight.Grammar

open Highlight.Regex (Span)

/-- A match as a hook sees it: the whole text, the index of the match, and the groups of the rule
    that matched. Group zero is the match itself. -/
structure MatchView where
  text : Text
  index : Nat
  groups : List (Option Span)

namespace MatchView

/-- What a group has read. -/
def group? (m : MatchView) (i : Nat) : Option String :=
  match m.groups[i]? with
  | some (some s) => some (m.text.slice s.start s.stop)
  | _ => none

/-- What the match has read. -/
def matched (m : MatchView) : String := (m.group? 0).getD ""

/-- The byte offset of the match. -/
def offset (m : MatchView) : Nat := m.text.byteOffset m.index

/-- The character before the match. -/
def preceding? (m : MatchView) : Option Char :=
  if m.index == 0 then none else m.text[m.index - 1]?

end MatchView

/-- The texts that hooks keep for one activation of a mode. -/
abbrev HookData := Dictionary String String

/-- What a hook says about a match. -/
inductive Verdict where
  /-- The match counts. -/
  | proceed
  /-- The match does not count. -/
  | ignore
  /-- The hook has panicked. -/
  | panic (message : String)
  deriving DecidableEq, Repr

/-- What a hook notes down: a label, and what it saw. -/
structure HookNote where
  label : String
  view : MatchView
  data : HookData

/-- What a hook answers. -/
structure HookReply where
  verdict : Verdict
  data : HookData
  notes : List HookNote

/-- A hook. -/
structure Hook where
  call : MatchView → HookData → HookReply

end Highlight.Grammar
