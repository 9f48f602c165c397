import Highlight.Registry

/-!
# Highlighting

* `Highlighter.recover` -- what becomes of a run that has failed;
* `Highlighter.rank`, `Highlighter.detect` -- the outcome that fits best among several languages;
* `Highlighter.runIn`, `Highlighter.runAt` -- a run in a language. The text of a sub-language is
  handed to a run of its own; how deep such runs can lie inside one another is the fuel;
* `Highlighter.highlight`, `Highlighter.highlightAuto` -- what is asked for.
-/

namespace Highlight.Highlighter

open Highlight.Scan (Attempt Scanned Scene)

/-! ## 1. One run -/

/-- What becomes of a run that has failed. In safe mode it is an outcome, with the text as it is,
    unless the run had no end. -/
def recover (h : Highlighter) (arena : Arena) (code : String) (top : List Nat) (s : Scanned)
    (f : Fault) : Except Fault Outcome :=
  if f.cause.isEndless || !h.options.safeMode then .error f
  else .ok {
    language := some arena.name
    ending := if f.cause.isIllegal then .illegal (.ofFault f code) else .failed f
    relevance := 0
    events := s.events ++ [.finish]
    top }

/-- The outcome of a run. -/
def conclude (h : Highlighter) (arena : Arena) (code : String) (top : List Nat) (s : Scanned) :
    Except Fault Outcome :=
  match s.fault with
  | some f => h.recover arena code top s f
  | none => .ok {
      language := some arena.name
      ending := .completed
      relevance := s.relevance
      events := s.events
      top }

/-- What does not change while a text is read in a compiled language. -/
def sceneOf (h : Highlighter) (delegate : Scan.Delegate) (arena : Arena) (code : String)
    (ignoreIllegals : Bool) : Scene :=
  ⟨arena, h.options, Text.ofString code, ignoreIllegals, delegate⟩

/-- A run in a compiled language. -/
def runArena (h : Highlighter) (delegate : Scan.Delegate) (arena : Arena) (code : String)
    (ignoreIllegals : Bool) (continuation : Option (List Nat)) : Attempt Outcome :=
  let scene := h.sceneOf delegate arena code ignoreIllegals
  let s := Scan.scanAll scene continuation
  ⟨s.notes, h.conclude arena code (scene.stack s.frames) s⟩

/-! ## 2. The best of several languages -/

/-- The language that a language extends, by its own name where there is one. -/
def supersetOf (h : Highlighter) (name : String) : Option String := do
  let base ← (← h.language? name).supersetOf
  return (h.canonicalName base).getD base

/-- Whether the first language extends the second. -/
def extendsLanguage (h : Highlighter) (a b : String) : Bool := h.supersetOf a == some b

/-- How two outcomes compare: the one that comes first is less. More relevance comes first; of two
    that are worth the same, a language comes before the one it extends. -/
def rank (h : Highlighter) (a b : Outcome) : Ordering :=
  (compare b.relevance a.relevance).then <|
    match a.language, b.language with
    | some a, some b =>
      if h.extendsLanguage a b then .lt
      else if h.extendsLanguage b a then .gt
      else .eq
    | _, _ => .eq

/-- The candidates that take part, by their own names, each once. -/
def participants (h : Highlighter) (seen : List String) : List String → List String
  | [] => []
  | c :: cs =>
    match h.canonicalName c with
    | none => participants h seen cs
    | some name =>
      if seen.contains name then participants h seen cs
      else if h.autoDetection name then name :: participants h (name :: seen) cs
      else participants h (name :: seen) cs

/-- The outcomes of several languages. One whose text has something forbidden is left out; any other
    fault ends it all. -/
def tryAll (run : String → Attempt Outcome) : List String → Attempt (List Outcome)
  | [] => pure []
  | name :: names =>
    let first := run name
    match first.result with
    | .ok o =>
      let others := tryAll run names
      ⟨first.notes ++ others.notes, others.result.map (o :: ·)⟩
    | .error f =>
      if f.cause.isIllegal then
        let others := tryAll run names
        ⟨first.notes ++ others.notes, others.result⟩
      else ⟨first.notes, .error f⟩

/-- An outcome put among others that are in order, the last one first: it passes those that it comes
    before, from the last one on. -/
def place (h : Highlighter) (o : Outcome) : List Outcome → List Outcome
  | [] => [o]
  | last :: earlier =>
    if h.rank o last == .lt then last :: h.place o earlier else o :: last :: earlier

/-- Outcomes in order of their rank. What comes earlier stays before what has the same rank; and
    since the rank need not be transitive, the outcomes are placed one after the other. -/
def ranked (h : Highlighter) (outcomes : List Outcome) : List Outcome :=
  (outcomes.foldl (fun placed o => h.place o placed) []).reverse

/-- The best of some outcomes, and the next best. -/
def choose (h : Highlighter) (code : String) (outcomes : List Outcome) : Detection :=
  match h.ranked outcomes with
  | [] => ⟨.plain code, none⟩
  | best :: others => ⟨best, others.head?⟩

/-- The best outcome among several languages, and the next best: the candidates given, else those of
    the options, else all languages. Plain text takes part, and is worth nothing. -/
def detect (h : Highlighter) (run : String → Attempt Outcome) (candidates : Option (List String))
    (code : String) : Attempt Detection := do
  let candidates := (candidates <|> h.options.languages).getD h.languages
  let outcomes ← tryAll run (h.participants [] candidates)
  return h.choose code (.plain code :: outcomes)

/-! ## 3. Runs inside runs -/

/-- How a text is highlighted in the language with a name, given whether what is forbidden is
    ignored and in which modes it begins. -/
abbrev Runner := String → String → Bool → Option (List Nat) → Attempt Outcome

/-- How the text of a sub-language is highlighted, given how a text is in any language. -/
def delegateTo (h : Highlighter) (run : Runner) : Scan.Delegate where
  single name code continuation :=
    (h.language? name).map fun _ => do return (← run name code true continuation).toNested
  best candidates code := do
    return (← h.detect (fun name => run name code false none) candidates code).best.toNested

/-- A run in the language with a name, given how the texts of sub-languages are highlighted. -/
def runIn (h : Highlighter) (run : Runner) : Runner := fun name code ignoreIllegals continuation =>
  match h.language? name with
  | none => .fail (unknown name)
  | some arena => h.runArena (h.delegateTo run) arena code ignoreIllegals continuation

/-- A run in the language with a name. `depth` is how many more runs can lie inside one another. -/
def runAt (h : Highlighter) : Nat → Runner
  | 0 => fun _ _ _ _ => .fail (.unplaced .endlessDelegation)
  | depth + 1 => h.runIn (h.runAt depth)

/-- How deep runs may lie inside one another. There are more levels than pairs of a language and a
    length up to that of the text, so deeper down a language would meet a text that is no shorter
    than one it was reading already. -/
def depthFor (h : Highlighter) (code : String) : Nat :=
  (code.length + 2) * (2 * h.registered.size + 2)

/-! ## 4. What is asked for -/

/-- A text highlighted in a language. -/
def highlight (h : Highlighter) (name code : String) (ignoreIllegals : Bool)
    (continuation : Option (List Nat)) : Attempt Outcome :=
  h.runAt (h.depthFor code) name code ignoreIllegals continuation

/-- A text highlighted in the language that fits best. -/
def highlightAuto (h : Highlighter) (code : String) (candidates : Option (List String)) :
    Attempt Detection :=
  h.detect (fun name => h.runAt (h.depthFor code) name code false none) candidates code

end Highlight.Highlighter
