import Highlight.Arena.Basic
import Highlight.Options
import Highlight.Scan.Attempt
import Highlight.Token.Event

/-!
# The state of a run

A run walks over a text with the modes that are open. Plain text is held back in a buffer until
something ends the stretch; then it is told, cut into keywords or handed to another language.

* `Frame`, `Run` -- an open mode, and the state of a run. The root is always open and is not among
  the frames;
* `Nested`, `Delegate` -- what a nested run comes to, and how one is had;
* `Scene` -- what does not change during a run;
* `Run.emit`, `Run.emitLabelled` -- telling events.
-/

namespace Highlight.Scan

open Highlight.Arena (ArenaMode RuleKind)
open Highlight.Grammar (HookData)
open Highlight.Token (Event)

/-! ## 1. State -/

/-- An open mode, with what its hooks have kept. -/
structure Frame where
  mode : Nat
  data : HookData

/-- The state of a run. -/
structure Run where
  /-- The open modes inside the root, the innermost first. -/
  frames : List Frame
  /-- Text that has been passed and not yet told. -/
  buffer : String
  /-- What has been told, the latest first. -/
  events : List Event
  relevance : Nat
  /-- How often each keyword has been found. -/
  hits : Dictionary String Nat
  /-- The modes in which the last block of each sub-language ended. -/
  blocks : Dictionary String (List Nat)
  /-- The index of the next character. -/
  index : Nat
  /-- The number of the first rule to look at. -/
  firstRule : Nat
  /-- Whether the next search takes up behind a rule that has been turned down. -/
  resumes : Bool
  /-- The kind and the index of the last match. -/
  last : Option (RuleKind × Nat)

/-- What a nested run comes to. -/
structure Nested where
  language : Option String
  relevance : Nat
  events : List Event
  top : List Nat

/-- How the text of a sub-language is highlighted: in the language with a name, from given modes on,
    if there is such a language; or in the one of several that fits best. -/
structure Delegate where
  single : String → String → Option (List Nat) → Option (Attempt Nested)
  best : Option (List String) → String → Attempt Nested

/-- What does not change during a run. -/
structure Scene where
  arena : Arena
  options : Options
  text : Text
  ignoreIllegals : Bool
  delegate : Delegate

namespace Scene

/-- The number of the innermost open mode. -/
def topId (s : Scene) (frames : List Frame) : Nat :=
  match frames with
  | [] => s.arena.root
  | f :: _ => f.mode

/-- The innermost open mode. -/
def top (s : Scene) (r : Run) : ArenaMode := s.arena.mode (s.topId r.frames)

/-- The open modes, the root first. -/
def stack (s : Scene) (frames : List Frame) : List Nat :=
  s.arena.root :: (frames.map (·.mode)).reverse

/-- A place in the text, for a fault. -/
def position (s : Scene) (i : Nat) : Position := ⟨s.text.byteOffset i, s.arena.name⟩

/-- A fault at a place in the text. -/
def fault (s : Scene) (cause : Cause) (i : Nat) : Fault := ⟨cause, s.position i⟩

end Scene

/-! ## 2. Telling events -/

namespace Run

/-- Tells an event. -/
def emit (r : Run) (e : Event) : Run := { r with events := e :: r.events }

/-- Tells text. -/
def emitText (r : Run) (s : String) : Run := r.emit (.text s)

/-- Tells text under a label; empty text is not told. -/
def emitLabelled (r : Run) (arena : Arena) (text label : String) : Run :=
  if text.isEmpty then r
  else ((r.emit (.opening (arena.scopeAlias label))).emitText text).emit .closing

/-- Holds more text back. -/
def hold (r : Run) (s : String) : Run := { r with buffer := r.buffer ++ s }

/-- Tells that a mode opens, if it has a label. -/
def openMode (r : Run) (arena : Arena) (m : ArenaMode) : Run :=
  match m.scope with
  | some label => r.emit (.opening (arena.scopeAlias label))
  | none => r

/-- Tells that a mode closes, if it has a label. -/
def closeMode (r : Run) (m : ArenaMode) : Run :=
  if m.scope.isSome then r.emit .closing else r

end Run

end Highlight.Scan
