import Highlight.Scan.Loop
import Highlight.Token.Sink

/-!
# What a run comes to

* `IllegalBy` -- where a run has met something forbidden, with the text around it;
* `Ending`, `Outcome` -- how a run has ended, and all that is known of it;
* `Outcome.plain` -- a text in no language;
* `Outcome.write` -- what is written in the end: the events of a run that was completed, and the
  text as it is otherwise.
-/

namespace Highlight

open Highlight.Token (Event Sink)

/-! ## 1. Forbidden text -/

/-- Where a run has met something forbidden. -/
structure IllegalBy where
  message : String
  /-- The byte offset of what is forbidden. -/
  index : Nat
  /-- The text around it. -/
  context : String
  /-- The label of the mode that forbids it. -/
  mode : String
  line : Nat
  column : Nat
  deriving DecidableEq, Repr

/-- The characters before a byte offset, the last one first, and those from it on. -/
def splitAtByte (before : List Char) : Nat → List Char → List Char × List Char
  | _, [] => (before, [])
  | 0, cs => (before, cs)
  | n + 1, c :: cs => splitAtByte (c :: before) (n + 1 - c.utf8Size) cs

/-- The shortest beginning of a text that takes at least `n` bytes, or all of it. -/
def takeBytes : Nat → List Char → List Char
  | 0, _ => []
  | _ + 1, [] => []
  | n + 1, c :: cs => c :: takeBytes (n + 1 - c.utf8Size) cs

/-- How much of the text is shown on either side of what is forbidden, in bytes. -/
def contextBytes : Nat := 100

/-- Where in a text something forbidden stands. -/
def IllegalBy.ofFault (f : Fault) (code : String) : IllegalBy :=
  let index := min f.position.offset code.utf8ByteSize
  let (before, after) := splitAtByte [] index code.toList
  { message := f.message
    index
    context := String.ofList
      ((takeBytes contextBytes before).reverse ++ takeBytes contextBytes after)
    mode := match f.cause with
      | .illegalLexeme _ mode => mode
      | _ => Arena.unnamed
    line := before.count '\n' + 1
    column := Text.byteLength (before.takeWhile (· != '\n')) + 1 }

/-! ## 2. Outcomes -/

/-- How a run has ended. -/
inductive Ending where
  /-- The text was read to its end. -/
  | completed
  /-- The text was not read at all. -/
  | plain
  /-- The text has something forbidden. -/
  | illegal (place : IllegalBy)
  /-- The run has failed. -/
  | failed (fault : Fault)
  deriving DecidableEq, Repr

/-- What a run comes to. -/
structure Outcome where
  /-- The language; none for plain text. -/
  language : Option String
  ending : Ending
  relevance : Nat
  events : List Event
  /-- The modes that are open at the end, the root first. -/
  top : List Nat

namespace Outcome

/-- A text in no language. -/
def plain (code : String) : Outcome where
  language := none
  ending := .plain
  relevance := 0
  events := [.text code, .finish]
  top := []

/-- What is written for an outcome. -/
def write (sink : Sink) (options : Options) (code : String) (o : Outcome) : String :=
  match o.ending with
  | .completed => sink.write options.classLead o.events
  | _ => Html.escape code

/-- Where something forbidden was met. -/
def illegalBy? (o : Outcome) : Option IllegalBy :=
  match o.ending with
  | .illegal place => some place
  | _ => none

/-- The fault of a run that has failed. -/
def fault? (o : Outcome) : Option Fault :=
  match o.ending with
  | .failed f => some f
  | _ => none

/-- An outcome as part of the run around it. -/
def toNested (o : Outcome) : Scan.Nested := ⟨o.language, o.relevance, o.events, o.top⟩

end Outcome

/-- The outcome that fits best, and the next best one. -/
structure Detection where
  best : Outcome
  secondBest : Option Outcome

end Highlight
