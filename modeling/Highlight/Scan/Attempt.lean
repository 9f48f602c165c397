import Highlight.Fault
import Highlight.Grammar.Hook

/-!
# Attempts

A step of a run can fail, and hooks can note things down along the way. What they have noted stays,
whether or not the step fails.

* `Attempt` -- the notes of a step, and its result or the fault that ended it.
-/

namespace Highlight.Scan

open Highlight.Grammar (HookNote)

/-- The notes of a step, and its result or the fault that ended it. -/
structure Attempt (α : Type) where
  notes : List HookNote
  result : Except Fault α

namespace Attempt

variable {α β : Type}

/-- A step that succeeds. -/
def done (a : α) : Attempt α := ⟨[], .ok a⟩

/-- A step that fails. -/
def fail (f : Fault) : Attempt α := ⟨[], .error f⟩

/-- One step after another. -/
def andThen (x : Attempt α) (f : α → Attempt β) : Attempt β :=
  match x.result with
  | .ok a =>
    let y := f a
    ⟨x.notes ++ y.notes, y.result⟩
  | .error e => ⟨x.notes, .error e⟩

instance : Monad Attempt where
  pure := done
  bind := andThen

end Attempt

end Highlight.Scan
