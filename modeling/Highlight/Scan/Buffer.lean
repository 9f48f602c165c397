import Highlight.Scan.Run

/-!
# Telling the text that has been held back

* `identifiers` -- the words of a text: the successive matches of a pattern, empty ones left out;
* `tellKeywords` -- text cut into keywords and what stands between them;
* `tellBlock` -- text handed to another language;
* `flush` -- the text that has been held back, in whichever way its mode asks for.
-/

namespace Highlight.Scan

open Highlight.Arena (ArenaMode ModeKeywords)
open Highlight.Grammar (SubLanguage)
open Highlight.Regex (Span)
open Highlight.Token (Event)

/-! ## 1. Keywords -/

/-- The successive matches of a pattern from index `i` on. After an empty match, which is left out,
    the search goes on one character further. Every round moves on, so a round for each character,
    and one, are enough. -/
def identifiersFrom (re : Regex) (text : Text) : Nat → Nat → List Span
  | 0, _ => []
  | fuel + 1, i =>
    match re.search text i with
    | none => []
    | some m =>
      if m.span.start == m.span.stop then identifiersFrom re text fuel (m.span.stop + 1)
      else m.span :: identifiersFrom re text fuel m.span.stop

/-- The words of a text. -/
def identifiers (re : Regex) (text : Text) : List Span :=
  identifiersFrom re text (text.size + 1) 0

/-- How far the telling of a text has come: what is to be told yet, and up to where the text has
    been looked at. -/
structure Telling where
  run : Run
  pending : String
  upTo : Nat

/-- Counts a keyword; it adds to the relevance as long as it has not been found too often. -/
def Run.count (r : Run) (maxHits : Nat) (word : String) (relevance : Nat) : Run :=
  let hits := (r.hits.get? word).getD 0 + 1
  { r with
    hits := r.hits.insert word hits
    relevance := if hits ≤ maxHits then r.relevance + relevance else r.relevance }

/-- Whether a category of keywords is not shown. -/
def isHidden (scope : String) : Bool := scope.toList.head? == some '_'

/-- Tells one word. -/
def tellWord (s : Scene) (k : ModeKeywords) (text : Text) (t : Telling) (span : Span) : Telling :=
  let pending := t.pending ++ text.slice t.upTo span.start
  let word := text.slice span.start span.stop
  match k.table.find? word with
  | none => ⟨t.run, pending ++ word, span.stop⟩
  | some entry =>
    let spelled := Keyword.Table.spell k.table.caseInsensitive word
    let r := (t.run.emitText pending).count s.options.maxKeywordHits spelled entry.relevance
    if isHidden entry.scope then ⟨r, word, span.stop⟩
    else ⟨r.emitLabelled s.arena word entry.scope, "", span.stop⟩

/-- Tells text, keywords of the innermost mode under their labels. -/
def tellKeywords (s : Scene) (buffer : String) (r : Run) : Run :=
  match (s.top r).keywords with
  | none => r.emitText buffer
  | some k =>
    let text := Text.ofString buffer
    let t := (identifiers k.regex text).foldl (tellWord s k text) ⟨r, "", 0⟩
    t.run.emitText (t.pending ++ text.slice t.upTo text.size)

/-! ## 2. Sub-languages -/

/-- Tells a nested run. It adds to the relevance unless its mode is worth nothing. -/
def Run.splice (r : Run) (m : ArenaMode) (n : Nested) : Run :=
  ({ r with relevance := if 0 < m.relevance then r.relevance + n.relevance else r.relevance }
    : Run).emit (.nested n.language n.events)

/-- Tells text in another language. Text for a language that is not there is plain. -/
def tellBlock (s : Scene) (sub : SubLanguage) (buffer : String) (r : Run) : Attempt Run :=
  if buffer.isEmpty then pure r
  else
    match sub with
    | .single name =>
      match s.delegate.single name buffer (r.blocks.get? name) with
      | none => pure (r.emitText buffer)
      | some nested => do
        let n ← nested
        return ({ r with blocks := r.blocks.insert name n.top } : Run).splice (s.top r) n
    | .list names => do
      let n ← s.delegate.best (if names.isEmpty then none else some names) buffer
      return r.splice (s.top r) n
    | .any => do
      let n ← s.delegate.best none buffer
      return r.splice (s.top r) n

/-! ## 3. Flushing -/

/-- Tells the text that has been held back, and holds none back. -/
def flush (s : Scene) (r : Run) : Attempt Run :=
  let buffer := r.buffer
  let r := { r with buffer := "" }
  match (s.top r).subLanguage with
  | some sub => tellBlock s sub buffer r
  | none => pure (tellKeywords s buffer r)

end Highlight.Scan
