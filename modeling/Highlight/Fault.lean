import Highlight.Text.Line
import Highlight.Text.Quoted

/-!
# What can go wrong

* `Cause` -- the ways in which a grammar can be refused or a run can fail;
* `Cause.name`, `Cause.message`, `Cause.tip` -- how a cause is named, told, and what is advised;
* `Fault` -- a cause with the place it concerns;
* `Fault.render`, `Fault.render?` -- a fault shown against the text that it was raised for, and
  whether it can be.
-/

namespace Highlight

/-! ## 1. Causes -/

/-- The ways in which a grammar can be refused or a run can fail. -/
inductive Cause where
  /-- No language is registered under the name. -/
  | unknownLanguage (language : String)
  /-- The root of a language contains itself. -/
  | selfAtTopLevel (language : String)
  /-- A mode refers to a name that the repository does not have. -/
  | unknownModeReference (name : String)
  /-- A mode has `match` and one of `begin` and `end`. -/
  | matchWithBeginOrEnd
  /-- A flag and a delimiter in several parts exclude each other. -/
  | multiClassIncompatible (flag key : String)
  /-- A delimiter in several parts has no map of scopes. -/
  | malformedScope (key : String)
  /-- A mode has `beforeMatch` and `starts`. -/
  | beforeMatchWithStarts
  /-- A variant has variants. -/
  | nestedVariants
  /-- More modes are being compiled one inside the other than the limit allows. -/
  | modeNestingTooDeep (limit : Nat)
  /-- A pattern cannot be read. -/
  | invalidPattern (pattern message : String)
  /-- What follows the bar of a keyword is no relevance. -/
  | invalidKeywordRelevance (keyword value : String)
  /-- A text is no grammar. -/
  | invalidGrammarData (message : String)
  /-- A text is no set of options. -/
  | invalidOptions (message : String)
  /-- The text has something that its mode forbids. -/
  | illegalLexeme (lexeme mode : String)
  /-- A mode has opened and closed without reading anything. -/
  | zeroWidthMatch (language : String)
  /-- A run makes no headway. -/
  | infiniteLoop (iterations : Nat)
  /-- A hook has panicked. -/
  | hookPanicked (message : String)
  /-- Sub-languages delegate to one another without end. -/
  | endlessDelegation
  deriving DecidableEq, Repr

namespace Cause

/-- The name of a cause. -/
def name : Cause → String
  | .unknownLanguage _ => "UnknownLanguage"
  | .selfAtTopLevel _ => "SelfAtTopLevel"
  | .unknownModeReference _ => "UnknownModeReference"
  | .matchWithBeginOrEnd => "MatchWithBeginOrEnd"
  | .multiClassIncompatible _ _ => "MultiClassIncompatible"
  | .malformedScope _ => "MalformedScope"
  | .beforeMatchWithStarts => "BeforeMatchWithStarts"
  | .nestedVariants => "NestedVariants"
  | .modeNestingTooDeep _ => "ModeNestingTooDeep"
  | .invalidPattern _ _ => "InvalidPattern"
  | .invalidKeywordRelevance _ _ => "InvalidKeywordRelevance"
  | .invalidGrammarData _ => "InvalidGrammarData"
  | .invalidOptions _ => "InvalidOptions"
  | .illegalLexeme _ _ => "IllegalLexeme"
  | .zeroWidthMatch _ => "ZeroWidthMatch"
  | .infiniteLoop _ => "InfiniteLoop"
  | .hookPanicked _ => "HookPanicked"
  | .endlessDelegation => "EndlessDelegation"

/-- A cause told in a sentence. -/
def message : Cause → String
  | .unknownLanguage language => "unknown language: " ++ Text.quoted language
  | .selfAtTopLevel language =>
    "contains `self` is not supported at the top-level of language " ++ Text.quoted language
  | .unknownModeReference name => "unknown mode reference " ++ Text.quoted name
  | .matchWithBeginOrEnd => "begin & end are not supported with match"
  | .multiClassIncompatible flag key => flag ++ " is not compatible with a multi-pattern " ++ key
  | .malformedScope key => key ++ " must be a capture-index map"
  | .beforeMatchWithStarts => "beforeMatch cannot be used with starts"
  | .nestedVariants => "a variant cannot declare variants of its own"
  | .modeNestingTooDeep limit =>
    "modes nest deeper than " ++ toString limit ++ " levels while compiling"
  | .invalidPattern pattern message =>
    "invalid pattern " ++ Text.quoted pattern ++ ": " ++ message
  | .invalidKeywordRelevance keyword value =>
    "invalid relevance " ++ Text.quoted value ++ " for keyword " ++ Text.quoted keyword
  | .invalidGrammarData message => "invalid grammar data: " ++ message
  | .invalidOptions message => "invalid options: " ++ message
  | .illegalLexeme lexeme mode =>
    "Illegal lexeme " ++ Text.quoted lexeme ++ " for mode " ++ Text.quoted mode
  | .zeroWidthMatch language => "0 width match regex (" ++ language ++ ")"
  | .infiniteLoop iterations =>
    "potential infinite loop, way more iterations than matches (" ++ toString iterations
      ++ " iterations)"
  | .hookPanicked message => "match hook panicked: " ++ message
  | .endlessDelegation => "sub-languages delegate to one another without end"

/-- What is advised, where there is advice. -/
def tip : Cause → Option String
  | .unknownLanguage language =>
    some ("Language `" ++ language
      ++ "` is not registered, did you register it under another name?")
  | .selfAtTopLevel _ => some "`self` may only appear inside a nested mode's `contains`"
  | .unknownModeReference name => some ("Add `" ++ name ++ "` to the language repository")
  | .matchWithBeginOrEnd => some "Use either `match` or `begin`/`end`, not both"
  | .multiClassIncompatible flag _ =>
    some ("`" ++ flag ++ "` cannot be combined with a multi-pattern delimiter")
  | .malformedScope key =>
    some ("`" ++ key ++ "` must map capture indexes to scopes when the pattern is a list")
  | .beforeMatchWithStarts =>
    some "`beforeMatch` already uses `starts`, move the chained mode elsewhere"
  | .nestedVariants => some "Flatten the inner `variants` into the outer list"
  | .modeNestingTooDeep _ =>
    some "An `endsWithParent` mode with its own `end` cannot contain itself"
  | .invalidPattern pattern _ => some ("Check the pattern `" ++ pattern ++ "`")
  | .invalidKeywordRelevance keyword _ =>
    some ("Keyword `" ++ keyword ++ "` must use an integer relevance after `|`")
  | .invalidGrammarData _ => none
  | .invalidOptions _ => none
  | .illegalLexeme _ _ =>
    some "Enable safe mode or ignore illegals to highlight malformed input"
  | .zeroWidthMatch _ => some "A begin pattern and the following end pattern both matched nothing"
  | .infiniteLoop _ => some "The grammar keeps matching without consuming input"
  | .hookPanicked _ => none
  | .endlessDelegation => none

/-- Whether a cause lies in a grammar, in the options, or in the name of a language. -/
def isConfiguration : Cause → Bool
  | .illegalLexeme _ _ => false
  | .zeroWidthMatch _ => false
  | .infiniteLoop _ => false
  | .hookPanicked _ => false
  | .endlessDelegation => false
  | _ => true

/-- Whether a cause is a forbidden text. -/
def isIllegal : Cause → Bool
  | .illegalLexeme _ _ => true
  | _ => false

/-- Whether a cause is a run without headway. -/
def isInfiniteLoop : Cause → Bool
  | .infiniteLoop _ => true
  | _ => false

/-- Whether a run cannot be mended after this cause, since it had no end. -/
def isEndless : Cause → Bool
  | .infiniteLoop _ => true
  | .endlessDelegation => true
  | _ => false

end Cause

/-! ## 2. Faults -/

/-- The place that a fault concerns: a byte offset, and the language being worked on. -/
structure Position where
  offset : Nat
  language : String
  deriving DecidableEq, Repr

/-- The place of a fault that has none. -/
def Position.nowhere : Position := ⟨0, "<null>"⟩

/-- A cause with the place it concerns. -/
structure Fault where
  cause : Cause
  position : Position
  deriving DecidableEq, Repr

namespace Fault

/-- A fault without a place. -/
def unplaced (cause : Cause) : Fault := ⟨cause, .nowhere⟩

/-- A fault of a grammar. -/
def ofGrammar (cause : Cause) (language : String) : Fault := ⟨cause, ⟨0, language⟩⟩

/-- A fault told in a sentence. -/
def message (f : Fault) : String := f.cause.message

/-! ## 3. Rendering -/

/-- A text without the spaces that it begins with. -/
def dropSpaces (line : List Char) : List Char := line.dropWhile (· == ' ')

/-- A text without the white space that it ends in. -/
def dropEnd (line : List Char) : List Char := (line.reverse.dropWhile Unicode.isSpace).reverse

/-- A text moved to the right, so that it ends in column `width`. -/
def alignRight (fill : Char) (width : Nat) (s : List Char) : List Char :=
  List.replicate (width - s.length) fill ++ s

/-- How wide the caret under an excerpt is, with the dashes that lead up to it. -/
def caretWidth (place : Text.LinePlace) : Nat :=
  place.column - (place.line.length - (dropSpaces place.line).length) + 1

/-- The excerpt under a fault: the line without its indentation, and a caret under the place. -/
def excerpt (place : Text.LinePlace) : List Char :=
  let number := (toString place.number).toList
  let margin := number.length + 2
  alignRight ' ' margin ['|'] ++ ['\n']
    ++ number ++ [' ', '|', ' '] ++ dropEnd (dropSpaces place.line) ++ ['\n']
    ++ alignRight ' ' margin ['|'] ++ [' '] ++ alignRight '-' (caretWidth place) ['^'] ++ ['\n']

/-- The first line of a rendered fault: its name, and the advice where there is some. -/
def headline (f : Fault) : String :=
  match f.cause.tip with
  | none => "Error: " ++ f.cause.name ++ "\n"
  | some tip => "Error: " ++ f.cause.name ++ " (" ++ tip ++ ")\n"

/-- A fault shown against the text that it was raised for. -/
def render (f : Fault) (code : String) : String :=
  f.headline ++ "-> " ++ f.position.language ++ "\n" ++
    match Text.lineAt code f.position.offset with
    | none => ""
    | some place => String.ofList (excerpt place)

/-- The widest field that a text can be formatted to. -/
def maxWidth : Nat := 65535

/-- A fault shown against the text that it was raised for; nothing where its caret would take a field
    wider than there can be. -/
def render? (f : Fault) (code : String) : Option String :=
  if (Text.lineAt code f.position.offset).any (maxWidth < caretWidth ·) then none
  else some (f.render code)

end Fault

end Highlight
