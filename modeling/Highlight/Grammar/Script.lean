import Highlight.Grammar.Language

/-!
# Scripts for hooks and extensions

Most hooks and extensions are a few simple steps. This file fixes a list of such steps and what
they do, so that a hook or an extension can be written down as data.

* `HookStep`, `Hook.ofSteps` -- the steps of a hook run in order; the first that ignores the match
  or panics is the last one;
* `ExtensionStep`, `Extension.ofStep` -- what an extension can do to a mode.
-/

namespace Highlight.Grammar

/-! ## 1. Hooks -/

/-- A step of a hook. -/
inductive HookStep where
  /-- Notes down what the hook sees. -/
  | log (label : String)
  /-- Keeps the text of a group, if it took part. -/
  | store (key : String) (group : Nat)
  /-- Ignores the match. -/
  | ignore
  /-- Ignores the match when this is what it has read. -/
  | ignoreIfText (text : String)
  /-- Ignores the match when it begins at this byte offset. -/
  | ignoreIfIndex (offset : Nat)
  /-- Ignores the match when this character stands before it. -/
  | ignoreIfPrecededBy (c : Option Char)
  /-- Ignores the match when this occurs somewhere in the text. -/
  | ignoreIfInputContains (text : String)
  /-- Ignores the match when a group took no part. -/
  | ignoreIfNoGroup (group : Nat)
  /-- Ignores the match unless a group has read what was kept; both may be missing. -/
  | ignoreUnlessStored (key : String) (group : Nat)
  /-- Panics. -/
  | panic (message : String)

/-- Whether a list of characters occurs in another. -/
def occurs (needle : List Char) : List Char → Bool
  | [] => needle.isEmpty
  | c :: cs => needle.isPrefixOf (c :: cs) || occurs needle cs

/-- Whether a step ignores the match. -/
def HookStep.ignores (m : MatchView) (data : HookData) : HookStep → Bool
  | .ignore => true
  | .ignoreIfText text => m.matched == text
  | .ignoreIfIndex offset => m.offset == offset
  | .ignoreIfPrecededBy c => m.preceding? == c
  | .ignoreIfInputContains text => occurs text.toList m.text.toList
  | .ignoreIfNoGroup group => (m.group? group).isNone
  | .ignoreUnlessStored key group => data.get? key != m.group? group
  | _ => false

/-- Runs the steps of a hook. -/
def runSteps (m : MatchView) (data : HookData) (notes : List HookNote) :
    List HookStep → HookReply
  | [] => ⟨.proceed, data, notes.reverse⟩
  | .log label :: steps => runSteps m data (⟨label, m, data⟩ :: notes) steps
  | .store key group :: steps =>
    match m.group? group with
    | some text => runSteps m (data.insert key text) notes steps
    | none => runSteps m data notes steps
  | .panic message :: _ => ⟨.panic message, data, notes.reverse⟩
  | step :: steps =>
    if step.ignores m data then ⟨.ignore, data, notes.reverse⟩ else runSteps m data notes steps

/-- The hook that runs these steps. -/
def Hook.ofSteps (steps : List HookStep) : Hook := ⟨fun m data => runSteps m data [] steps⟩

/-! ## 2. Extensions -/

/-- What an extension can do to a mode. -/
inductive ExtensionStep where
  /-- Gives every mode inside another this relevance. -/
  | relevanceIfNested (relevance : Nat)
  /-- Forbids a pattern in every mode. -/
  | illegalEverywhere (pattern : String)
  /-- Lets the modes with this label begin with these words. -/
  | beginKeywordsForScope (scope words : String)
  /-- Gives a mode without keywords those of the mode around it. -/
  | inheritKeywords
  /-- Writes the label of the mode around before that of the mode, with a dot between them. -/
  | scopeFromParent

/-- What an extension step makes of a mode. -/
def ExtensionStep.apply (mode : Mode) (parent : Option Mode) : ExtensionStep → Mode
  | .relevanceIfNested relevance =>
    if parent.isSome then { mode with relevance := some relevance } else mode
  | .illegalEverywhere pattern => { mode with illegal := some (.single pattern) }
  | .beginKeywordsForScope scope words =>
    match mode.scope with
    | some (.single label) =>
      if label == scope then { mode with beginKeywords := some words } else mode
    | _ => mode
  | .inheritKeywords => { mode with keywords := mode.keywords <|> parent.bind (·.keywords) }
  | .scopeFromParent =>
    match mode.scope, parent.bind (·.scope) with
    | some (.single label), some (.single outer) =>
      { mode with scope := some (.single (outer ++ "." ++ label)) }
    | _, _ => mode

/-- The extension that takes this step. -/
def Extension.ofStep (step : ExtensionStep) : Extension :=
  ⟨fun mode parent => step.apply mode parent⟩

end Highlight.Grammar
