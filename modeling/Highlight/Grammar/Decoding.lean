import Highlight.Grammar.Language
import Highlight.Json.Reader
import Highlight.Text.Words

/-!
# Grammars written in JSON

A language is an object; its fields are those of its root mode and a few of its own. Fields with
an unknown name are passed over, a known one must not come twice, and `null` leaves a field of a
mode unset. A mode inside another can also be an array of its fields in their order.

* `decodeSource`, `decodeScope`, `decodeKeywords`, `decodeSubLanguage` -- the values of fields;
* `decodeMode` -- a mode, at its place in the grammar;
* `Language.decode`, `Language.parse` -- a language.
-/

namespace Highlight.Grammar

open Highlight.Json

/-! ## 1. Values of fields -/

/-- A string, or a list of strings. -/
def decodeSource : Json → Option Source
  | .string s => some (.single s)
  | v => v.strings?.map .sequence

/-- A label that may be missing. -/
def decodeLabel : Json → Option (Option String)
  | .null => some none
  | .string s => some (some s)
  | _ => none

/-- Labels by the number of their group. Keys are taken in their order, so that of two that write
    the same number the later one counts. -/
def decodeLabels (fields : List (String × Json)) : Option (Dictionary Nat (Option String)) := do
  let labels ← fields.mapM fun (key, v) => (decodeLabel v).map (key, ·)
  let inOrder := (Dictionary.ofList labels).entries
  let numbered ← inOrder.mapM fun (key, label) =>
    (Text.unsigned? Text.maxCount key).map (·, label)
  return Dictionary.ofList numbered

/-- A label, or labels by group. -/
def decodeScope : Json → Option Scope
  | .string s => some (.single s)
  | .object fields => (decodeLabels fields).map .groups
  | _ => none

/-- Words in one string or in a list. -/
def decodeWordList : Json → Option WordList
  | .string s => some (.words s)
  | v => v.strings?.map .list

/-- Words, or words by category. -/
def decodeKeywords : Json → Option Keywords
  | .string s => some (.words s)
  | .object fields => do
    let lists ← fields.mapM fun (key, v) => (decodeWordList v).map (key, ·)
    return .categories (Dictionary.ofList lists)
  | v => v.strings?.map .list

/-- The name of a language, a list of names, or a truth value for any language. -/
def decodeSubLanguage : Json → Option SubLanguage
  | .bool _ => some .any
  | .string s => some (.single s)
  | v => v.strings?.map .list

/-- A field that may be unset: missing, `null`, or a value. -/
def optional {α : Type} (decode : Json → Option α) : Option Json → Option (Option α)
  | none => some none
  | some .null => some none
  | some v => (decode v).map some

/-- A field that has a default: missing, or a value. -/
def defaulted {α : Type} (default : α) (decode : Json → Option α) : Option Json → Option α
  | none => some default
  | some v => decode v

/-! ## 2. Modes -/

/-- The fields of a mode, in their order. -/
def modeKeys : List String :=
  ["scope", "className", "begin", "match", "end", "beginScope", "endScope", "beginKeywords",
   "beforeMatch", "keywords", "contains", "variants", "starts", "relevance", "illegal",
   "endsWithParent", "endsParent", "excludeBegin", "excludeEnd", "returnBegin", "returnEnd", "skip",
   "subLanguage"]

/-- The fields of a mode by name, whether they were written by name or in their order. -/
def modeFields : Json → Option (List (String × Json))
  | .object fields => if unrepeated modeKeys fields then some fields else none
  | .array items => if items.length ≤ modeKeys.length then some (modeKeys.zip items) else none
  | _ => none

/-- The fields of a mode that hold no modes. -/
def decodePlain (fields : List (String × Json)) : Option Mode := do
  let get (key : String) := field? key fields
  let flag (key : String) := optional bool? (get key)
  return {
    scope := ← optional decodeScope (get "scope")
    className := ← optional string? (get "className")
    beginPattern := ← optional decodeSource (get "begin")
    matchPattern := ← optional decodeSource (get "match")
    endPattern := ← optional decodeSource (get "end")
    beginScope := ← optional decodeScope (get "beginScope")
    endScope := ← optional decodeScope (get "endScope")
    beginKeywords := ← optional string? (get "beginKeywords")
    beforeMatch := ← optional string? (get "beforeMatch")
    keywords := ← optional decodeKeywords (get "keywords")
    relevance := ← optional (natural? Text.maxScore) (get "relevance")
    illegal := ← optional decodeSource (get "illegal")
    endsWithParent := ← flag "endsWithParent"
    endsParent := ← flag "endsParent"
    excludeBegin := ← flag "excludeBegin"
    excludeEnd := ← flag "excludeEnd"
    returnBegin := ← flag "returnBegin"
    returnEnd := ← flag "returnEnd"
    skip := ← flag "skip"
    subLanguage := ← optional decodeSubLanguage (get "subLanguage") }

/-- The items of a list, each with its index. -/
def decodeItems {α : Type} (decode : Nat → Json → Option α) : Nat → List Json → Option (List α)
  | _, [] => some []
  | i, v :: vs => do return (← decode i v) :: (← decodeItems decode (i + 1) vs)

/-- A list of items. -/
def decodeList {α : Type} (decode : Nat → Json → Option α) : Json → Option (List α)
  | .array items => decodeItems decode 0 items
  | _ => none

/-- What a name in a `contains` list stands for. -/
def containedName (name : String) : Contained Mode :=
  if name == "self" then .self else .named name

/-- An entry of a `contains` list, given how modes are decoded. -/
def decodeContained (decode : Identity → Json → Option Mode) (id : Identity) :
    Json → Option (Contained Mode)
  | .string name => some (containedName name)
  | v =>
    if v.readable then (decode id v).map fun m => .mode ⟨id, m⟩ else none

/-- A mode from its fields, given how the modes inside it are decoded. -/
def decodeFields (decode : Identity → Json → Option Mode) (id : Identity)
    (fields : List (String × Json)) : Option Mode := do
  let mode ← decodePlain fields
  let contains ← optional
    (decodeList fun i => decodeContained decode (("contains", i) :: id)) (field? "contains" fields)
  let variants ← optional
    (decodeList fun i => decode (("variants", i) :: id)) (field? "variants" fields)
  let starts ← optional
    (fun v => (decode (("starts", 0) :: id) v).map (⟨("starts", 0) :: id, ·⟩))
    (field? "starts" fields)
  return { mode with contains, variants, starts }

/-- A mode at the place `id`. `depth` bounds how deep modes nest; a text that nests deeper has been
    refused before. -/
def decodeMode : Nat → Identity → Json → Option Mode
  | 0, _, _ => none
  | depth + 1, id, v => do decodeFields (decodeMode depth) id (← modeFields v)

/-! ## 3. Languages -/

/-- The fields of a language beside those of its root mode. -/
def languageKeys : List String :=
  ["name", "aliases", "case_insensitive", "disableAutodetect", "supersetOf", "classNameAliases",
   "repository"]

/-- Texts by name. -/
def decodeNames : Json → Option (Dictionary String String)
  | .object fields => do
    return Dictionary.ofList (← fields.mapM fun (key, v) => (string? v).map (key, ·))
  | _ => none

/-- The modes of a repository. Each has a place of its own, also one that a later one replaces. -/
def decodeRepository : Json → Option (Dictionary String (Shared Mode))
  | .object fields => do
    let modes ← decodeItems
      (fun i v => (decodeMode maxDepth [("repository", i)] v).map (⟨[("repository", i)], ·⟩)) 0
      (fields.map (·.2))
    return Dictionary.ofList ((fields.map (·.1)).zip modes)
  | _ => none

/-- A language. What is written under a name of no field has to be a value all the same. -/
def Language.decode : Json → Option Language
  | .object fields => do
    let others := fields.filter fun f => !languageKeys.contains f.1
    unless unrepeated (languageKeys ++ modeKeys) fields && readableFields others do none
    let get (key : String) := field? key fields
    return {
      name := ← optional string? (get "name")
      aliases := ← defaulted [] strings? (get "aliases")
      caseInsensitive := ← defaulted false bool? (get "case_insensitive")
      disableAutodetect := ← defaulted false bool? (get "disableAutodetect")
      supersetOf := ← optional string? (get "supersetOf")
      classNameAliases := ← defaulted .empty decodeNames (get "classNameAliases")
      repository := ← defaulted .empty decodeRepository (get "repository")
      mode := ← decodeFields (decodeMode maxDepth) [] fields }
  | _ => none

/-- The language that a text writes. -/
def Language.parse (source : String) : Option Language := do Language.decode (← Json.parse source)

end Highlight.Grammar
