import Highlight.Arena.Compilation
import Highlight.Grammar.Decoding
import Highlight.Outcome

/-!
# Languages by name

A highlighter keeps compiled languages by name, and further names for them. Names are compared in
lower case.

* `Supply` -- what a language is built from, the first time and every time it is built again;
* `Highlighter` -- the languages, the aliases, and the options;
* `register`, `registerText`, `unregister`, `registerAliases`, `reload` -- the changes. One that
  fails changes no language;
* `canonicalName`, `language?`, `autoDetection`, `languages` -- what is asked of it.
-/

namespace Highlight

open Highlight.Grammar (Language)

/-! ## 1. Supplies -/

/-- What a language is built from: the grammar of the next build, and those of the builds after it.
    The last one serves for all further builds. -/
structure Supply where
  next : Language
  later : List Language

/-- The supply of one grammar. -/
def Supply.constant (l : Language) : Supply := ⟨l, []⟩

/-- What is left after a build. -/
def Supply.rest (s : Supply) : Supply :=
  match s.later with
  | [] => s
  | l :: later => ⟨l, later⟩

/-! ## 2. Highlighters -/

/-- A language that has been registered. -/
structure Registration where
  arena : Arena
  supply : Supply

/-- Languages by name, with further names for them. -/
structure Highlighter where
  registered : Dictionary String Registration := .empty
  aliases : Dictionary String String := .empty
  options : Options := {}

namespace Highlighter

/-- The highlighter without languages. -/
def new (options : Options) : Highlighter := { options }

/-- The highlighter with other options. -/
def configure (h : Highlighter) (options : Options) : Highlighter := { h with options }

/-- The highlighter with safe mode on or off. -/
def setSafeMode (h : Highlighter) (on : Bool) : Highlighter :=
  { h with options := { h.options with safeMode := on } }

/-! ## 3. Questions -/

/-- The names of the languages, in order. -/
def languages (h : Highlighter) : List String := h.registered.keys

/-- The name of the language that a name, in any letter case, stands for. -/
def canonicalName (h : Highlighter) (name : String) : Option String :=
  let name := Text.lowered name
  if h.registered.contains name then some name
  else (h.aliases.get? name).filter h.registered.contains

/-- The language that a name stands for. -/
def language? (h : Highlighter) (name : String) : Option Arena := do
  return (← h.registered.get? (← h.canonicalName name)).arena

/-- Whether a language is among those to choose from. -/
def autoDetection (h : Highlighter) (name : String) : Bool :=
  (h.language? name).any fun a => !a.disableAutodetect

/-- The fault of a name that stands for no language. -/
def unknown (name : String) : Fault := .unplaced (.unknownLanguage name)

/-! ## 4. Changes -/

/-- The highlighter with further names for a language. -/
def registerAliases (h : Highlighter) (aliases : List String) (language : String) : Highlighter :=
  { h with
    aliases := aliases.foldl (fun d a => d.insert (Text.lowered a) (Text.lowered language))
      h.aliases }

/-- The highlighter with a language, built from the first grammar of a supply. -/
def register (h : Highlighter) (name : String) (supply : Supply) : Except Fault Highlighter := do
  let name := Text.lowered name
  let arena ← Arena.compileLanguage name supply.next
  let h := { h with registered := h.registered.insert name ⟨arena, supply.rest⟩ }
  return h.registerAliases arena.aliases name

/-- The fault of a text that is no grammar. -/
def badGrammar : Fault := .unplaced (.invalidGrammarData "no language is written here")

/-- The language that a text writes. -/
def parseLanguage (source : String) : Except Fault Language :=
  match Language.parse source with
  | some l => .ok l
  | none => .error badGrammar

/-- The highlighter with a language that a text writes. -/
def registerText (h : Highlighter) (name source : String) : Except Fault Highlighter := do
  h.register name (.constant (← parseLanguage source))

/-- The highlighter without a language and all names for it, and whether it was there. -/
def unregister (h : Highlighter) (name : String) : Highlighter × Bool :=
  let name := Text.lowered name
  ({ h with
      registered := h.registered.erase name
      aliases := h.aliases.filter fun e => e.2 != name }, h.registered.contains name)

/-- The highlighter with a language built again. A build that fails leaves the language as it is,
    and its grammar is used up all the same. -/
def reload (h : Highlighter) (name : String) : Highlighter × Except Fault Unit :=
  match h.canonicalName name with
  | none => (h, .error (unknown name))
  | some canonical =>
    match h.registered.get? canonical with
    | none => (h, .error (unknown name))
    | some r =>
      let (arena, answer) := match Arena.compileLanguage canonical r.supply.next with
        | .ok arena => (arena, .ok ())
        | .error f => (r.arena, .error f)
      ({ h with registered := h.registered.insert canonical ⟨arena, r.supply.rest⟩ }, answer)

end Highlighter

end Highlight
