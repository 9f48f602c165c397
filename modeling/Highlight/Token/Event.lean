/-!
# Events

A run tells what it finds by events: texts, the opening and closing of scopes, and the events of a
nested run in another language.

* `Event` -- what a run tells;
* `Event.textOf` -- the text that events carry, in order.
-/

namespace Highlight.Token

/-- What a run tells. -/
inductive Event where
  /-- A stretch of text, perhaps empty. -/
  | text (s : String)
  /-- A scope opens. -/
  | opening (scope : String)
  /-- The scope that was opened last closes. -/
  | closing
  /-- A nested run, with the language it was in, if it was in one. -/
  | nested (language : Option String) (events : List Event)
  /-- The run is over: every open scope closes. -/
  | finish

mutual

/-- The text that an event carries. -/
def Event.textOf : Event → String
  | .text s => s
  | .nested _ events => textsOf events
  | _ => ""

/-- The text that events carry, in order. -/
def textsOf : List Event → String
  | [] => ""
  | e :: es => e.textOf ++ textsOf es

end

end Highlight.Token
