import Highlight.Json.Reader
import Highlight.Text.Words

/-!
# Options

* `Options` -- what holds for every run of a highlighter;
* `Options.decode`, `Options.parse` -- options written in JSON, as an object or as an array of the
  values in their order. A value that is missing has its default.
-/

namespace Highlight

open Highlight.Json

/-- What holds for every run of a highlighter. -/
structure Options where
  /-- What goes before the class names in HTML. -/
  classLead : String := "hljs-"
  /-- The languages to choose from; all of them where unset. -/
  languages : Option (List String) := none
  /-- Faults in a text become results instead of ending the call. -/
  safeMode : Bool := true
  /-- How often one keyword counts in a run. -/
  maxKeywordHits : Nat := 7
  /-- How many steps a run may take before its headway is looked at. -/
  loopIterationFloor : Nat := 100000
  /-- How many steps a run may then have taken for each byte that it has passed. -/
  loopIterationRatio : Nat := 3
  deriving DecidableEq, Repr

instance : Inhabited Options := ⟨{}⟩

namespace Options

/-- The names of the options, in their order. -/
def keys : List String :=
  ["classPrefix", "languages", "safeMode", "maxKeywordHits", "loopIterationFloor",
   "loopIterationRatio"]

/-- The options by name, whether they were written by name or in their order. -/
def fieldsOf : Json → Option (List (String × Json))
  | .object fields => if unrepeated keys fields then some fields else none
  | .array items => if items.length ≤ keys.length then some (keys.zip items) else none
  | _ => none

/-- A value where one is written, else the default. -/
def valueOr {α : Type} (default : α) (decode : Json → Option α) : Option Json → Option α
  | none => some default
  | some v => decode v

/-- A list of names, or `null` for none. -/
def decodeLanguages : Json → Option (Option (List String))
  | .null => some none
  | v => v.strings?.map some

/-- Options. -/
def decode (v : Json) : Option Options := do
  let fields ← fieldsOf v
  let get (key : String) := field? key fields
  let base : Options := {}
  let count := natural? Text.maxCount
  return {
    classLead := ← valueOr base.classLead string? (get "classPrefix")
    languages := ← valueOr base.languages decodeLanguages (get "languages")
    safeMode := ← valueOr base.safeMode bool? (get "safeMode")
    maxKeywordHits := ← valueOr base.maxKeywordHits count (get "maxKeywordHits")
    loopIterationFloor := ← valueOr base.loopIterationFloor count (get "loopIterationFloor")
    loopIterationRatio := ← valueOr base.loopIterationRatio count (get "loopIterationRatio") }

/-- The options that a text writes. -/
def parse (source : String) : Option Options := do decode (← Json.parse source)

end Options

end Highlight
