import Highlight.Token.Tree

/-!
# What becomes of the events of a run

A run only tells events. What is written in the end is up to a sink.

* `Sink` -- what the events of a completed run are written as, given what goes before class names;
* `Sink.tree` -- HTML, by way of a token tree;
* `Sink.count` -- no more than how many events there were.
-/

namespace Highlight.Token

/-- What the events of a completed run are written as. -/
structure Sink where
  write : String → List Event → String

/-- HTML. -/
def Sink.tree : Sink := ⟨fun lead events => (TokenTree.ofEvents events).toHtml lead⟩

/-- The number of events. -/
def Sink.count : Sink := ⟨fun lead events => lead ++ toString events.length ++ " events"⟩

end Highlight.Token
