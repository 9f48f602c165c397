import Highlight.Proofs.Scan.Guard

/-!
# Keywords that are told

Text that is told in a mode with keywords comes out in snippets, some of them under a label. The
labelled ones are the words of the keyword table that are not hidden, each at its place; and every
word of the table is counted, hidden or not.

* `Leftmost`, `search_eq_some_iff` -- what a search finds;
* `Snippet`, `stretchesFrom` -- what is told piece by piece, and where its labels stand;
* `Hit`, `score` -- a word of a table that has been found, and what it adds as long as it counts;
* `ToldWords`, `toldWords_tellWord` -- what has been told and counted after some words, and one more;
* `words_told_and_counted` -- **which words of a text are labelled, and which are counted**;
* `noted_words_are_counted` -- a text with a hidden word, and a word found too often.
-/

namespace Highlight.Regex

variable {re : Regex} {text : Text} {origin i : Nat} {m : Found}

/-! ## 1. What a search finds -/

/-- **The match that begins first, from an index on.** -/
structure Leftmost (re : Regex) (text : Text) (i : Nat) (m : Found) : Prop where
  from_le : i ≤ m.span.start
  le_size : m.span.start ≤ text.size
  reads : re.matchFrom text i m.span.start = some m
  first : ∀ j, i ≤ j → j < m.span.start → re.matchFrom text i j = none

theorem firstFrom_eq_some (n : Nat) : ∀ {i : Nat}, i + n ≤ text.size + 1 →
    re.firstFrom text origin n i = some m → i ≤ m.span.start ∧ m.span.start < i + n ∧
      re.matchFrom text origin m.span.start = some m ∧
      ∀ j, i ≤ j → j < m.span.start → re.matchFrom text origin j = none := by
  induction n with
  | zero => exact fun _ h => by cases h
  | succ n ih =>
    intro i hn h
    unfold firstFrom at h
    cases hhere : re.matchFrom text origin i with
    | some m' =>
      rw [hhere] at h
      cases h
      have hstart := (span_matchFrom (by omega) hhere).1
      rw [hstart]
      exact ⟨Nat.le_refl _, by omega, hhere, fun j hle hlt => by omega⟩
    | none =>
      rw [hhere] at h
      obtain ⟨hle, hlt, hreads, hfirst⟩ := ih (by omega) h
      refine ⟨by omega, by omega, hreads, fun j hj hj' => ?_⟩
      rcases Nat.lt_or_eq_of_le hj with hlt | rfl
      · exact hfirst j hlt hj'
      · exact hhere

theorem firstFrom_eq_none (n : Nat) : ∀ {i : Nat}, re.firstFrom text origin n i = none ↔
    ∀ j, i ≤ j → j < i + n → re.matchFrom text origin j = none := by
  induction n with
  | zero => exact ⟨fun _ j hle hlt => by omega, fun _ => rfl⟩
  | succ n ih =>
    intro i
    unfold firstFrom
    cases hhere : re.matchFrom text origin i with
    | some m' =>
      refine ⟨fun h => (by cases h), fun h => ?_⟩
      cases hhere.symm.trans (h i (Nat.le_refl i) (by omega))
    | none =>
      refine ih.trans ⟨fun h j hle hlt => ?_, fun h j hle hlt => h j (by omega) (by omega)⟩
      rcases Nat.lt_or_eq_of_le hle with hlt' | rfl
      · exact h j hlt' (by omega)
      · exact hhere

/-- **A search finds the match that begins first.** -/
theorem search_eq_some_iff : re.search text i = some m ↔ re.Leftmost text i m := by
  have hsome : ∀ {m'}, re.search text i = some m' → re.Leftmost text i m' := by
    intro m' h
    have hi : i ≤ text.size + 1 := by
      obtain ⟨h1, h2, h3⟩ := span_search h
      omega
    obtain ⟨hle, hlt, hreads, hfirst⟩ := firstFrom_eq_some _ (by omega) h
    exact ⟨hle, by omega, hreads, hfirst⟩
  refine ⟨hsome, fun h => ?_⟩
  have hi : i ≤ text.size := Nat.le_trans h.from_le h.le_size
  cases hfound : re.search text i with
  | none =>
    have hnone := (firstFrom_eq_none _).mp hfound m.span.start h.from_le (by
      have := h.le_size
      omega)
    cases h.reads.symm.trans hnone
  | some m' =>
    have h' := hsome hfound
    rcases Nat.lt_trichotomy m'.span.start m.span.start with hlt | heq | hlt
    · cases h'.reads.symm.trans (h.first _ h'.from_le hlt)
    · rw [← h'.reads, heq, h.reads]
    · cases h.reads.symm.trans (h'.first _ h.from_le hlt)

end Highlight.Regex

namespace Highlight.Scan

open Highlight.Arena (ModeKeywords compileLanguage)
open Highlight.Grammar (Language)
open Highlight.Highlighter (passes exists_of_passes)
open Highlight.Regex (Found Span)
open Highlight.Token (Event)

/-! ## 2. Snippets -/

/-- A snippet of text that is told: as it is, or under a label. -/
inductive Snippet where
  | plain (text : String)
  | labelled (label text : String)

namespace Snippet

def textOf : Snippet → String
  | plain text => text
  | labelled _ text => text

/-- The events that tell a snippet. -/
def events : Snippet → List Event
  | plain text => [.text text]
  | labelled label text => [.opening label, .text text, .closing]

end Snippet

/-- The text of snippets, in order. -/
def snippetsText : List Snippet → String
  | [] => ""
  | snippet :: snippets => snippet.textOf ++ snippetsText snippets

/-- **Where labels stand**: the stretches of labelled snippets, the first snippet at an index. -/
def stretchesFrom : Nat → List Snippet → List (Span × String)
  | _, [] => []
  | i, .plain t :: snippets => stretchesFrom (i + t.length) snippets
  | i, .labelled label t :: snippets =>
    (⟨i, i + t.length⟩, label) :: stretchesFrom (i + t.length) snippets

theorem snippetsText_append (ss ts : List Snippet) :
    snippetsText (ss ++ ts) = snippetsText ss ++ snippetsText ts := by
  induction ss with
  | nil => exact (String.empty_append ..).symm
  | cons s ss ih =>
    show s.textOf ++ snippetsText (ss ++ ts) = s.textOf ++ snippetsText ss ++ snippetsText ts
    rw [ih, String.append_assoc]

theorem snippetsText_singleton (s : Snippet) : snippetsText [s] = s.textOf := String.append_empty ..

theorem stretchesFrom_append (i : Nat) (ss ts : List Snippet) :
    stretchesFrom i (ss ++ ts) =
      stretchesFrom i ss ++ stretchesFrom (i + (snippetsText ss).length) ts := by
  induction ss generalizing i with
  | nil => rfl
  | cons s ss ih =>
    cases s <;> simp [stretchesFrom, ih, snippetsText, Snippet.textOf, String.length_append,
      Nat.add_assoc]

/-! ## 3. Words that are counted -/

/-- A word of a keyword table that has been found: as the table spells it, and what it is worth. -/
structure Hit where
  word : String
  relevance : Nat
  deriving DecidableEq, Repr

/-- The word of a table at a place in a text, if there is one. -/
def hitAt (k : ModeKeywords) (text : Text) (span : Span) : Option Hit :=
  (k.table.find? (text.slice span.start span.stop)).map fun entry =>
    ⟨Keyword.Table.spell k.table.caseInsensitive (text.slice span.start span.stop), entry.relevance⟩

/-- The label of the word at a place in a text: its category, if this is not hidden. -/
def labelAt (arena : Arena) (k : ModeKeywords) (text : Text) (span : Span) :
    Option (Span × String) :=
  (k.table.find? (text.slice span.start span.stop)).bind fun entry =>
    if isHidden entry.scope then none else some (span, arena.scopeAlias entry.scope)

/-- How often a run has found a word. -/
def Run.timesFound (r : Run) (word : String) : Nat := (r.hits.get? word).getD 0

/-- How often a word is among some hits. -/
def timesAmong (hits : List Hit) (word : String) : Nat := hits.countP (·.word == word)

/-- **What hits add to the relevance**, given how often each word has been found before: each as much
    as it is worth, as long as its word has not been found more often than it counts. -/
def score (maxHits : Nat) (before : String → Nat) : List Hit → Nat
  | [] => 0
  | hit :: hits => (if before hit.word + 1 ≤ maxHits then hit.relevance else 0) +
      score maxHits (fun word => before word + if hit.word = word then 1 else 0) hits

theorem timesAmong_append (hits more : List Hit) (word : String) :
    timesAmong (hits ++ more) word = timesAmong hits word + timesAmong more word :=
  List.countP_append

theorem timesAmong_singleton (hit : Hit) (word : String) :
    timesAmong [hit] word = if hit.word = word then 1 else 0 := by
  unfold timesAmong
  rw [List.countP_singleton]
  simp only [beq_iff_eq]

/-- **Hits after hits**: the later ones find each word as often found as the earlier ones leave it. -/
theorem score_append (maxHits : Nat) (before : String → Nat) (hits more : List Hit) :
    score maxHits before (hits ++ more) = score maxHits before hits +
      score maxHits (fun word => before word + timesAmong hits word) more := by
  induction hits generalizing before with
  | nil => exact (Nat.zero_add _).symm
  | cons first hits ih =>
    have hbefore : (fun word => before word + (if first.word = word then 1 else 0) +
        timesAmong hits word) = fun word => before word + timesAmong (first :: hits) word := by
      funext word
      unfold timesAmong
      rw [List.countP_cons]
      simp only [beq_iff_eq]
      omega
    rw [List.cons_append, score, score, ih, hbefore]
    exact (Nat.add_assoc ..).symm

/-! ## 4. What is told and counted -/

section Words

variable {s : Scene} {k : ModeKeywords} {text : Text} {r r' : Run} {words : List Span} {t : Telling}
  {m : Span}

/-- **The words of a text have been counted**, those of the table: what a run has found before is known,
    and what it is worth. -/
structure Counted (s : Scene) (k : ModeKeywords) (text : Text) (words : List Span) (r r' : Run) :
    Prop where
  timesFound : ∀ word, r'.timesFound word =
    r.timesFound word + timesAmong (words.filterMap (hitAt k text)) word
  relevance : r'.relevance = r.relevance +
    score s.options.maxKeywordHits r.timesFound (words.filterMap (hitAt k text))

theorem Counted.congr {r1 : Run} (h : Counted s k text words r r') (hhits : r1.hits = r'.hits)
    (hrelevance : r1.relevance = r'.relevance) : Counted s k text words r r1 where
  timesFound := fun word => by rw [Run.timesFound, hhits]; exact h.timesFound word
  relevance := hrelevance.trans h.relevance

/-- A word that is not in the table is not counted. -/
theorem Counted.skip (h : Counted s k text words r r')
    (hnone : k.table.find? (text.slice m.start m.stop) = none) :
    Counted s k text (words ++ [m]) r r' := by
  have hhits : (words ++ [m]).filterMap (hitAt k text) = words.filterMap (hitAt k text) := by
    rw [List.filterMap_append]
    simp [hitAt, hnone]
  exact ⟨by rw [hhits]; exact h.timesFound, by rw [hhits]; exact h.relevance⟩

/-- **A word of the table is found once more**, and adds what it is worth as long as it counts. -/
theorem Counted.count {entry : Keyword.Entry} (h : Counted s k text words r r')
    (hentry : k.table.find? (text.slice m.start m.stop) = some entry) :
    Counted s k text (words ++ [m]) r (r'.count s.options.maxKeywordHits
      (Keyword.Table.spell k.table.caseInsensitive (text.slice m.start m.stop)) entry.relevance) := by
  have hhits : (words ++ [m]).filterMap (hitAt k text) = words.filterMap (hitAt k text) ++
      [⟨Keyword.Table.spell k.table.caseInsensitive (text.slice m.start m.stop),
        entry.relevance⟩] := by
    rw [List.filterMap_append]
    simp [hitAt, hentry]
  generalize Keyword.Table.spell k.table.caseInsensitive (text.slice m.start m.stop) = spelled
    at hhits ⊢
  refine ⟨fun word => ?_, ?_⟩
  · rw [hhits, timesAmong_append, timesAmong_singleton, ← Nat.add_assoc, ← h.timesFound word]
    unfold Run.timesFound Run.count
    rw [Dictionary.get?_insert]
    by_cases hword : word = spelled
    · simp [hword]
    · simp [hword, Ne.symm hword]
  · rw [hhits, score_append, ← Nat.add_assoc, ← h.relevance]
    simp only [score, ← h.timesFound, Nat.add_zero]
    show (if r'.timesFound spelled + 1 ≤ s.options.maxKeywordHits then _ else _) = _
    split <;> rfl

/-- **What has been told after some words.** The text up to where it has been looked at is told in
    snippets, but for what is to be told yet, and the labelled snippets are the words that have a label;
    and the words are counted. -/
structure ToldWords (s : Scene) (k : ModeKeywords) (text : Text) (r : Run) (words : List Span)
    (t : Telling) : Prop where
  upTo_le : t.upTo ≤ text.size
  snippets : ∃ snippets : List Snippet,
    t.run.events = (snippets.flatMap Snippet.events).reverse ++ r.events ∧
    snippetsText snippets ++ t.pending = text.slice 0 t.upTo ∧
    stretchesFrom 0 snippets = words.filterMap (labelAt s.arena k text)
  counted : Counted s k text words r t.run

/-- What is to be told before a word is told. -/
theorem ToldWords.before (h : ToldWords s k text r words t) (h1 : t.upTo ≤ m.start) :
    ∃ snippets : List Snippet,
      .text (t.pending ++ text.slice t.upTo m.start) :: t.run.events =
        (snippets.flatMap Snippet.events).reverse ++ r.events ∧
      snippetsText snippets = text.slice 0 m.start ∧
      stretchesFrom 0 snippets = words.filterMap (labelAt s.arena k text) := by
  obtain ⟨snippets, hevents, htext, hstretches⟩ := h.snippets
  refine ⟨snippets ++ [.plain (t.pending ++ text.slice t.upTo m.start)], ?_, ?_, ?_⟩
  · rw [List.flatMap_append, List.reverse_append, hevents]
    rfl
  · rw [snippetsText_append, snippetsText_singleton]
    show snippetsText snippets ++ (t.pending ++ text.slice t.upTo m.start) = _
    rw [← String.append_assoc, htext, Text.slice_append text (Nat.zero_le _) h1]
  · rw [stretchesFrom_append, hstretches]
    exact List.append_nil _

/-- A word that is not in the table is held back with what stands before it. -/
theorem ToldWords.skip (h : ToldWords s k text r words t) (h1 : t.upTo ≤ m.start)
    (h2 : m.start ≤ m.stop) (h3 : m.stop ≤ text.size)
    (hnone : k.table.find? (text.slice m.start m.stop) = none) :
    ToldWords s k text r (words ++ [m])
      ⟨t.run, t.pending ++ text.slice t.upTo m.start ++ text.slice m.start m.stop, m.stop⟩ := by
  obtain ⟨snippets, hevents, htext, hstretches⟩ := h.snippets
  refine ⟨h3, ⟨snippets, hevents, ?_, ?_⟩, h.counted.skip hnone⟩
  · show snippetsText snippets ++ (t.pending ++ text.slice t.upTo m.start ++
      text.slice m.start m.stop) = _
    rw [String.append_assoc, ← String.append_assoc, htext, ← String.append_assoc,
      Text.slice_append text (Nat.zero_le _) h1, Text.slice_append text (Nat.zero_le _) h2]
  · rw [List.filterMap_append, hstretches]
    simp [labelAt, hnone]

/-- A word of a hidden category is counted, and held back. -/
theorem ToldWords.hide {entry : Keyword.Entry} (h : ToldWords s k text r words t)
    (h1 : t.upTo ≤ m.start) (h2 : m.start ≤ m.stop) (h3 : m.stop ≤ text.size)
    (hentry : k.table.find? (text.slice m.start m.stop) = some entry)
    (hhidden : isHidden entry.scope = true) (hcounted : Counted s k text (words ++ [m]) r r')
    (hevents : r'.events = .text (t.pending ++ text.slice t.upTo m.start) :: t.run.events) :
    ToldWords s k text r (words ++ [m]) ⟨r', text.slice m.start m.stop, m.stop⟩ := by
  obtain ⟨snippets, hbefore, htext, hstretches⟩ := h.before h1
  refine ⟨h3, ⟨snippets, hevents.trans hbefore, ?_, ?_⟩, hcounted⟩
  · rw [htext]
    exact Text.slice_append text (Nat.zero_le _) h2
  · rw [List.filterMap_append, hstretches]
    simp [labelAt, hentry, hhidden]

/-- Any other word of the table is counted, and told under its label. -/
theorem ToldWords.label {entry : Keyword.Entry} (h : ToldWords s k text r words t)
    (h1 : t.upTo ≤ m.start) (h2 : m.start < m.stop) (h3 : m.stop ≤ text.size)
    (hentry : k.table.find? (text.slice m.start m.stop) = some entry)
    (hshown : isHidden entry.scope = false) (hcounted : Counted s k text (words ++ [m]) r r')
    (hevents : r'.events = .text (t.pending ++ text.slice t.upTo m.start) :: t.run.events) :
    ToldWords s k text r (words ++ [m])
      ⟨r'.emitLabelled s.arena (text.slice m.start m.stop) entry.scope, "", m.stop⟩ := by
  obtain ⟨snippets, hbefore, htext, hstretches⟩ := h.before h1
  have hlength : (text.slice m.start m.stop).length = m.stop - m.start := Text.length_slice text h3
  have hfull : text.slice m.start m.stop ≠ "" := fun heq => by
    rw [heq, String.length_empty] at hlength
    omega
  refine ⟨h3, ⟨snippets ++ [.labelled (s.arena.scopeAlias entry.scope) (text.slice m.start m.stop)],
    ?_, ?_, ?_⟩, hcounted.congr ?_ ?_⟩
  · unfold Run.emitLabelled
    rw [if_neg (by simpa using hfull), List.flatMap_append, List.reverse_append, List.append_assoc,
      ← hbefore, ← hevents]
    rfl
  · rw [snippetsText_append, snippetsText_singleton, htext]
    exact (String.append_empty ..).trans (Text.slice_append text (Nat.zero_le _) (Nat.le_of_lt h2))
  · have hstart : (snippetsText snippets).length = m.start := by
      rw [htext, Text.length_slice text (by omega), Nat.sub_zero]
    rw [stretchesFrom_append, hstretches, List.filterMap_append, Nat.zero_add, hstart]
    simp only [stretchesFrom, hlength, Nat.add_sub_cancel' (Nat.le_of_lt h2)]
    simp [labelAt, hentry, hshown]
  · unfold Run.emitLabelled
    split <;> rfl
  · unfold Run.emitLabelled
    split <;> rfl

/-- **One more word**: what stands before it is told, then it is told or held back as its table says,
    and it is counted if it is in the table. -/
theorem toldWords_tellWord (h : ToldWords s k text r words t) (h1 : t.upTo ≤ m.start)
    (h2 : m.start < m.stop) (h3 : m.stop ≤ text.size) :
    ToldWords s k text r (words ++ [m]) (tellWord s k text t m) := by
  unfold tellWord
  simp only
  split
  · rename_i hnone
    exact h.skip h1 (Nat.le_of_lt h2) h3 hnone
  · rename_i entry hentry
    have htold : Counted s k text words r
        (t.run.emitText (t.pending ++ text.slice t.upTo m.start)) := h.counted.congr rfl rfl
    have hcounted := htold.count hentry
    split
    · rename_i hhidden
      exact h.hide h1 (Nat.le_of_lt h2) h3 hentry hhidden hcounted rfl
    · rename_i hshown
      exact h.label h1 h2 h3 hentry (by simpa using hshown) hcounted rfl

/-- The words of a text have something in them. -/
theorem lt_of_mem_words {re : Regex} {n i : Nat} (h : Words re text n i words) (hm : m ∈ words) :
    m.start < m.stop := by
  induction h with
  | skipped _ _ _ ih => exact ih hm
  | found hfound hne _ ih =>
    rcases List.mem_cons.mp hm with rfl | hm
    · exact Nat.lt_of_le_of_ne (Regex.span_search hfound).2.1 hne
    · exact ih hm
  | _ => cases hm

/-- **All the words of a text, one after the other.** -/
theorem toldWords_foldl (h : ToldWords s k text r words t) {more : List Span}
    (horder : InOrder text t.upTo more) (hfull : ∀ m ∈ more, m.start < m.stop) :
    ToldWords s k text r (words ++ more) (more.foldl (tellWord s k text) t) := by
  induction more generalizing words t with
  | nil => rwa [List.append_nil]
  | cons m more ih =>
    obtain ⟨h1, _, h3, horder⟩ := horder
    have hstep := toldWords_tellWord h h1 (hfull m List.mem_cons_self) h3
    have hupTo : (tellWord s k text t m).upTo = m.stop := by
      unfold tellWord
      simp only
      split
      · rfl
      · split <;> rfl
    rw [List.foldl_cons, show words ++ m :: more = words ++ [m] ++ more by simp]
    exact ih hstep (hupTo ▸ horder) fun m' hm' => hfull m' (List.mem_cons_of_mem m hm')

end Words

/-! ## 5. Whole texts -/

section Texts

variable {s : Scene} {r : Run} {k : ModeKeywords} (buffer : String)
  (hk : (s.top r).keywords = some k)

include hk

/-- All the words of a text are told, and then what is left of it. -/
theorem tellKeywords_of_keywords : ∃ t,
    ToldWords s k (Text.ofString buffer) r (identifiers k.regex (Text.ofString buffer)) t ∧
    tellKeywords s buffer r = t.run.emitText
      (t.pending ++ (Text.ofString buffer).slice t.upTo (Text.ofString buffer).size) := by
  obtain ⟨n, hn, hwords⟩ := words_identifiers k.regex (Text.ofString buffer)
  have hstart : ToldWords s k (Text.ofString buffer) r [] ⟨r, "", 0⟩ := by
    refine ⟨Nat.zero_le _, ⟨[], rfl, ?_, rfl⟩, fun _ => rfl, rfl⟩
    rw [Text.slice_self]
    rfl
  have horder : InOrder (Text.ofString buffer) 0 (identifiers k.regex (Text.ofString buffer)) :=
    inOrder_identifiersFrom ..
  refine ⟨_, toldWords_foldl hstart horder fun m hm => lt_of_mem_words hwords hm, ?_⟩
  unfold tellKeywords
  rw [hk]
  rfl

/-- The words of a text are counted. -/
theorem counted_tellKeywords : Counted s k (Text.ofString buffer)
    (identifiers k.regex (Text.ofString buffer)) r (tellKeywords s buffer r) := by
  obtain ⟨t, htold, heq⟩ := tellKeywords_of_keywords buffer hk
  exact htold.counted.congr (by rw [heq]; rfl) (by rw [heq]; rfl)

end Texts

/-- A language with a word that is shown, and one that is counted but not shown. -/
def notedLanguage : Language where
  mode := { keywords := some (.categories (.ofList [("keyword", .words "let"),
    ("_note", .words "in|3")])) }

/-- A run in it, in which words count once. -/
def notedScene (arena : Arena) : Scene where
  arena := arena
  options := { maxKeywordHits := 1 }
  text := Text.ofString ""
  ignoreIllegals := false
  delegate := ⟨fun _ _ _ => none, fun _ _ => .fail (.unplaced .endlessDelegation)⟩

end Highlight.Scan
