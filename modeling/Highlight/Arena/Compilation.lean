import Highlight.Arena.Preparation

/-!
# Compiling a language

Modes refer to one another freely: a mode can contain itself, stand in several places, or sit in a
cycle of the repository. A mode that has been met before is therefore known again by its identity,
and its number is used. Where the way it ends depends on the mode around it, it is compiled once for
every terminator of that mode.

* `Key`, `Building` -- what a compiled mode is known by, and what has been compiled so far;
* `terminatorOf` -- all that ends a mode;
* `compileMode` -- a mode with all that it contains. The number of modes that can be open at once is
  limited, which is also what the recursion goes by;
* `compileLanguage` -- a language.
-/

namespace Highlight.Arena

open Highlight.Grammar

/-! ## 1. What has been compiled -/

/-- What a compiled mode is known by: its identity and, where its end depends on the mode around
    it, the terminator of that mode. -/
structure Key where
  id : Identity
  terminator : Option String
  deriving DecidableEq

/-- The identity of what is made for the mode with a key. -/
def Key.place (k : Key) : Identity :=
  match k.terminator with
  | none => ("any", 0) :: k.id
  | some t => (t, 1) :: k.id

/-- What has been compiled so far: the modes by number, with a gap for each that is not complete,
    and the patterns of their beginnings, which are known before the modes are complete. -/
structure Building where
  slots : Array (Option ArenaMode)
  begins : Array String
  memo : List (Key × Nat)

/-- A step of the compilation. -/
abbrev Build := StateT Building (Except Cause)

/-- What a mode has to know of the one around it. -/
structure Parent where
  id : Nat
  mode : Mode
  terminator : String

/-- Keeps a place for a mode: its number. -/
def reserve (begins : String) (key : Option Key) : Build Nat := do
  let b ← get
  let id := b.slots.size
  set { b with
    slots := b.slots.push none
    begins := b.begins.push begins
    memo := (key.map (·, id)).toList ++ b.memo }
  return id

/-- Puts a mode into its place. -/
def fill (id : Nat) (m : ArenaMode) : Build Unit :=
  modify fun b => { b with slots := b.slots.setIfInBounds id (some m) }

/-! ## 2. Parts of a mode -/

/-- The pattern of a delimiter that is missing: it reads nothing, anywhere. -/
def matchEmpty : String := "\\B|\\b"

/-- The pattern of a mode's own end; a mode that ends with its parent needs none. -/
def ownEnd (m : Mode) : Option String :=
  match m.endPattern with
  | some pattern => some (sourceText pattern)
  | none => if isSet m.endsWithParent then none else some matchEmpty

/-- All that ends a mode: its own end, and what ends the mode around it if it ends with that. -/
def terminatorOf (m : Mode) (own : Option String) (parent : String) : String :=
  if isSet m.endsWithParent && parent != "" then
    match own with
    | some own => own ++ "|" ++ parent
    | none => parent
  else own.getD ""

/-- The keywords of a mode. -/
def compileKeywords (caseInsensitive : Bool) (k : Keywords) : Except Cause ModeKeywords := do
  let table ← Keyword.Table.compile k caseInsensitive
  let pattern := (Keyword.pattern? k).getD Keyword.defaultPattern
  return ⟨table, pattern, ← compilePattern pattern caseInsensitive⟩

/-- The delimiters of a mode: its beginning, its own end with what that means, and its terminator.
    The root has none. -/
structure Delimiters where
  beginSource : String
  endSource : Option String
  endRegex : Option Regex
  terminator : String

/-- The delimiters of a mode inside another. -/
def compileDelimiters (caseInsensitive : Bool) (m : Mode) (parent : Option Parent) :
    Except Cause Delimiters := do
  match parent with
  | none => return ⟨(m.beginPattern.map sourceText).getD "", none, none, ""⟩
  | some parent =>
    let beginSource := (m.beginPattern.map sourceText).getD matchEmpty
    let _ ← compilePattern beginSource caseInsensitive
    let endSource := ownEnd m
    let endRegex ← endSource.mapM fun source => compilePattern source caseInsensitive
    return ⟨beginSource, endSource, endRegex, terminatorOf m endSource parent.terminator⟩

/-- The rules of a mode: the beginnings of what it contains, its end, and what it forbids. -/
def rulesOf (contains : List (Nat × String)) (terminator : String) (illegal : Option String) :
    List Rule :=
  contains.map (fun (id, source) => ⟨.begins id, source⟩)
    ++ (if terminator == "" then [] else [⟨.ends, terminator⟩])
    ++ illegal.toList.map (⟨.illegal, ·⟩)

/-- The label of a mode. -/
def labelOf : Option Scope → Option String
  | some (.single label) => some label
  | _ => none

/-! ## 3. Modes inside modes -/

/-- How a mode is compiled, given the mode around it and the key to know it by. -/
abbrev Compiler := Mode → Option Parent → Option Key → Build Nat

/-- One mode for each variant: the mode with the fields of the variant laid over it. A variant has
    no variants. -/
def expandVariants (m : Shared Mode) (variants : List Mode) :
    Except Cause (List (Shared Mode)) := do
  let base : Mode := { m.value with variants := none }
  variants.zipIdx.mapM fun (variant, i) =>
    if variant.variants.isSome then throw .nestedVariants
    else return ⟨("variant", i) :: m.id, base.inherit variant⟩

/-- A mode that may stand in several places: it is compiled where it is met first. -/
def compileShared (compile : Compiler) (m : Shared Mode) (parent : Option Parent) : Build Nat := do
  let terminator :=
    if m.value.dependsOnParent then some ((parent.map (·.terminator)).getD "") else none
  let key : Key := ⟨m.id, terminator⟩
  match (← get).memo.lookup key with
  | some id => return id
  | none => compile m.value parent (some key)

/-- Modes that may stand in several places, in order. -/
def compileAll (compile : Compiler) (parent : Option Parent) : List (Shared Mode) → Build (List Nat)
  | [] => return []
  | m :: ms => do
    let id ← compileShared compile m parent
    return id :: (← compileAll compile parent ms)

/-- A mode inside another, or its variants in its place. -/
def compileInner (compile : Compiler) (parent : Parent) (m : Shared Mode) : Build (List Nat) := do
  match m.value.variants with
  | none => compileAll compile (some parent) [m]
  | some variants => compileAll compile (some parent) (← expandVariants m variants)

/-- What a mode contains, in order. -/
def compileContents (compile : Compiler) (repository : Dictionary String (Shared Mode))
    (parent : Parent) : List (Contained Mode) → Build (List Nat)
  | [] => return []
  | .self :: rest => do
    return parent.id :: (← compileContents compile repository parent rest)
  | .named name :: rest => do
    match repository.get? name with
    | none => throw (.unknownModeReference name)
    | some m =>
      let ids ← compileInner compile parent m
      return ids ++ (← compileContents compile repository parent rest)
  | .mode m :: rest => do
    let ids ← compileInner compile parent m
    return ids ++ (← compileContents compile repository parent rest)

/-- The mode that another one starts. -/
def compileStarts (compile : Compiler) (parent : Option Parent) :
    Option (Shared Mode) → Build (Option Nat)
  | none => return none
  | some m => do return some (← compileShared compile m parent)

/-! ## 4. Modes -/

/-- How many modes can be open at once while they are compiled. -/
def maxNesting : Nat := 32

/-- What a mode comes to by itself, before what it contains is looked at. -/
structure Parts where
  prepared : Prepared
  delimiters : Delimiters
  illegal : Option String
  keywords : Option ModeKeywords

/-- What a mode comes to by itself, under the mode around it. -/
def compileParts (language : Language) (parent : Option Parent) (key : Option Key) (raw : Mode) :
    Except Cause Parts := do
  let folded := language.caseInsensitive
  let place := (key.map Key.place).getD [("root", 0)]
  let prepared ← prepare language.extensions place (parent.map (·.mode)) raw
  let delimiters ← compileDelimiters folded prepared.mode parent
  let illegal := prepared.mode.illegal.map sourceText
  if let some source := illegal then
    let _ ← compilePattern source folded
  let keywords ← prepared.mode.keywords.mapM fun k => compileKeywords folded k
  return { prepared, delimiters, illegal, keywords }

/-- A compiled mode, from what it comes to by itself and what it contains. -/
def Parts.assemble (p : Parts) (contains : List Nat) (starts : Option Nat) (rules : RuleSet) :
    ArenaMode :=
  let m := p.prepared.mode
  { scope := labelOf m.scope
    beginScope := p.prepared.beginScope
    endScope := p.prepared.endScope
    beginSource := p.delimiters.beginSource
    endSource := p.delimiters.endSource
    endRegex := p.delimiters.endRegex
    terminator := p.delimiters.terminator
    illegal := p.illegal
    keywords := p.keywords
    relevance := m.relevance.getD 1
    contains, starts
    endsWithParent := isSet m.endsWithParent
    endsParent := isSet m.endsParent
    excludeBegin := isSet m.excludeBegin
    excludeEnd := isSet m.excludeEnd
    returnBegin := isSet m.returnBegin
    returnEnd := isSet m.returnEnd
    skip := isSet m.skip
    subLanguage := m.subLanguage
    skipAfterDot := p.prepared.skipAfterDot
    onBegin := m.onBegin
    onEnd := m.onEnd
    rules }

/-- A mode with all that it contains: its number. `room` is how many more modes can be opened. -/
def compileMode (language : Language) : Nat → Compiler
  | 0, _, _, _ => throw (.modeNestingTooDeep maxNesting)
  | room + 1, raw, parent, key => do
    let p ← compileParts language parent key raw
    let m := p.prepared.mode
    let id ← reserve p.delimiters.beginSource key
    let contains ← compileContents (compileMode language room) language.repository
      ⟨id, m, p.delimiters.terminator⟩ (m.contains.getD [])
    let starts ← compileStarts (compileMode language room) parent m.starts
    let begins := (← get).begins
    let rules ← RuleSet.make
      (rulesOf (contains.map fun i => (i, begins.getD i "")) p.delimiters.terminator p.illegal)
      language.caseInsensitive
    fill id (p.assemble contains starts rules)
    return id

/-! ## 5. Languages -/

/-- The modes of a finished compilation; every place has to be filled. -/
def finish (slots : Array (Option ArenaMode)) : Except Cause (Array ArenaMode) :=
  match slots.toList.mapM id with
  | some modes => .ok modes.toArray
  | none => .error (.invalidGrammarData "a mode was reserved but never compiled")

/-- The modes of a language, and the number of its root. -/
def compileModes (name : String) (language : Language) :
    Except Cause (Nat × Array ArenaMode) := do
  if language.mode.containsSelf then throw (.selfAtTopLevel name)
  let (root, b) ← (compileMode language maxNesting language.mode none none).run ⟨#[], #[], []⟩
  return (root, ← finish b.slots)

/-- A language compiled under a name. -/
def compileLanguage (name : String) (language : Language) : Except Fault Arena := do
  let (root, modes) ← (compileModes name language).mapError (Fault.ofGrammar · name)
  return {
    name
    aliases := language.aliases
    caseInsensitive := language.caseInsensitive
    disableAutodetect := language.disableAutodetect
    supersetOf := language.supersetOf.map Text.lowered
    classNameAliases := language.classNameAliases
    modes, root }

end Highlight.Arena
