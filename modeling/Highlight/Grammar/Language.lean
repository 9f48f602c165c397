import Highlight.Grammar.Mode

/-!
# Languages

* `Extension` -- a step that a language adds to the preparation of its modes;
* `Language` -- a grammar: its root mode, and what holds for all of its modes.
-/

namespace Highlight.Grammar

/-- A step that a language adds to the preparation of its modes: it sees a mode and the mode
    around it. -/
structure Extension where
  apply : Mode → Option Mode → Mode

/-- A grammar as it is written. -/
structure Language where
  name : Option String := none
  aliases : List String := []
  caseInsensitive : Bool := false
  disableAutodetect : Bool := false
  /-- The language that this one extends. -/
  supersetOf : Option String := none
  /-- What labels are called in the output. -/
  classNameAliases : Dictionary String String := .empty
  /-- The modes that others can name. -/
  repository : Dictionary String (Shared Mode) := .empty
  extensions : List Extension := []
  mode : Mode := {}

instance : Inhabited Language := ⟨{}⟩

end Highlight.Grammar
