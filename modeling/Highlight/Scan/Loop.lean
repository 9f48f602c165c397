import Highlight.Scan.Step

/-!
# A whole run

* `startIn`, `initial` -- how a run begins, perhaps where an earlier one stopped;
* `lacksHeadway` -- whether a run has taken too many steps for the way it has come;
* `turn`, `scan` -- one round of a run, and its rounds. The guard ends them at last, so its bound is
  fuel enough;
* `Scanned`, `scanAll` -- what a run comes to.
-/

namespace Highlight.Scan

open Highlight.Grammar (HookNote)
open Highlight.Token (Event)

/-! ## 1. The beginning -/

/-- The frames of a stack of modes, the root left out. -/
def framesOf (stack : List Nat) : List Frame := (stack.drop 1).reverse.map fun id => ⟨id, .empty⟩

/-- A run that begins in given modes, the root first: all of them but the root are opened. -/
def startIn (arena : Arena) (stack : List Nat) : Run :=
  (stack.drop 1).foldl (fun r id => r.openMode arena (arena.mode id)) {
    frames := framesOf stack
    buffer := ""
    events := []
    relevance := 0
    hits := .empty
    blocks := .empty
    index := 0
    firstRule := 0
    resumes := false
    last := none }

/-- The modes that a run begins in: those of `continuation`, if they can be the open modes of the
    language, and else the root. -/
def startStack (arena : Arena) (continuation : Option (List Nat)) : List Nat :=
  match continuation with
  | some stack => if arena.isValidStack stack then stack else [arena.root]
  | none => [arena.root]

/-- How a run begins, perhaps where an earlier one has stopped. -/
def initial (arena : Arena) (continuation : Option (List Nat)) : Run :=
  startIn arena (startStack arena continuation)

/-! ## 2. Headway -/

/-- A product, or the greatest count if it is greater. -/
def boundedMul (m n : Nat) : Nat := min (m * n) Text.maxCount

/-- Whether a run has taken too many steps for the way it has come. -/
def lacksHeadway (s : Scene) (steps i : Nat) : Bool :=
  s.options.loopIterationFloor < steps
    && boundedMul (s.text.byteOffset i) s.options.loopIterationRatio < steps

/-- The number of steps that no run can take without lacking headway. -/
def maxSteps (s : Scene) : Nat :=
  max s.options.loopIterationFloor
    (boundedMul (s.text.byteOffset s.text.size) s.options.loopIterationRatio) + 1

/-! ## 3. The run -/

/-- What a run comes to: its state, or the fault that ended it with the open modes and the events
    up to then; and the notes of hooks. -/
structure Scanned where
  notes : List HookNote
  frames : List Frame
  events : List Event
  relevance : Nat
  fault : Option Fault

/-- A run that is over: what is left of the text is told. -/
def complete (s : Scene) (notes : List HookNote) (r : Run) : Scanned :=
  let frames := r.frames
  let events := r.events
  match flush s (r.hold (s.text.slice r.index s.text.size)) with
  | ⟨more, .ok r⟩ =>
    ⟨notes ++ more, r.frames, (Event.finish :: r.events).reverse, r.relevance, none⟩
  | ⟨more, .error f⟩ => ⟨notes ++ more, frames, events.reverse, 0, some f⟩

/-- A run that a fault has ended. -/
def broken (notes : List HookNote) (frames : List Frame) (events : List Event) (f : Fault) :
    Scanned :=
  ⟨notes, frames, events.reverse, 0, some f⟩

/-- What one round of a run comes to. -/
inductive Turn where
  /-- The run goes on. -/
  | next (notes : List HookNote) (r : Run)
  /-- The run is over, but for the text that is left. -/
  | last (notes : List HookNote) (r : Run)
  /-- A fault ends the run. -/
  | broken (notes : List HookNote) (f : Fault)

/-- One round of a run: the search for the rule that matches next, and its step. `steps` counts the
    rounds, this one included. -/
def turn (s : Scene) (steps : Nat) (r : Run) : Turn :=
  match (s.top r).rules.next s.text r.index (if r.resumes then r.firstRule else 0) with
  | .error cause => .broken [] (.unplaced cause)
  | .ok (none, first) => .last [] { r with resumes := false, firstRule := first }
  | .ok (some m, first) =>
    if lacksHeadway s steps m.span.start then
      .broken [] (s.fault (.infiniteLoop steps) m.span.start)
    else
      match step s m { r with resumes := false, firstRule := first } with
      | ⟨notes, .error f⟩ => .broken notes f
      | ⟨notes, .ok r⟩ => if s.text.size < r.index then .last notes r else .next notes r

/-- The rounds of a run, of which `steps` have been taken; `notes` holds what hooks have noted, the
    latest first. -/
def scan (s : Scene) : Nat → Nat → List HookNote → Run → Scanned
  | 0, steps, notes, r =>
    broken notes.reverse r.frames r.events (s.fault (.infiniteLoop steps) r.index)
  | fuel + 1, steps, notes, r =>
    match turn s (steps + 1) r with
    | .next more r => scan s fuel (steps + 1) (more.reverse ++ notes) r
    | .last more r => complete s (notes.reverse ++ more) r
    | .broken more f => broken (notes.reverse ++ more) r.frames r.events f

/-- A whole run. -/
def scanAll (s : Scene) (continuation : Option (List Nat)) : Scanned :=
  scan s (maxSteps s) 0 [] (initial s.arena continuation)

end Highlight.Scan
