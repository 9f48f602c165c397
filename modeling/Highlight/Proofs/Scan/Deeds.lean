import Highlight.Proofs.Scan.Keywords
import Highlight.Proofs.Scan.Steps
import Mathlib.Algebra.BigOperators.Group.Finset.Piecewise
import Mathlib.Algebra.GroupWithZero.Nat

/-!
# What counts in a run

Three things that a run does can add to its relevance: it finds words, hands texts on, and closes
modes. They can be listed in their order, without looking at the relevance.

* `Block`, `Deed` -- a text that is handed on, and anything else that can count;
* `wordsWorth`, `closedWorth`, `handedWorth`, `worth` -- what deeds add;
* `score_eq_wordsWorth` -- words that are counted one after the other, and word by word;
* `lastTop`, `Continued` -- where the last block of a name has ended, and blocks that go on there;
* `textDeeds`, `flushDeeds`, `beginDeeds`, `endDeeds`, `stepDeeds` -- the deeds of a step;
* `roundDeeds`, `runDeeds` -- the deeds of a round, and of a whole run.
-/

namespace Highlight.Scan

open Highlight.Arena (ArenaMode ModeKeywords RuleMatch ScopeEmit)
open Highlight.Grammar (SubLanguage)
open Highlight.Token (Event)

/-! ## 1. Deeds -/

/-- A text that a mode has handed on, in which modes it began, and what it has come to. -/
structure Block where
  mode : Nat
  sub : SubLanguage
  text : String
  resumed : Option (List Nat)
  answer : Nested

/-- What is told of a block. -/
def Block.told (b : Block) : Option String × List Event := (b.answer.language, b.answer.events)

/-- The nested run that an event tells. -/
def nested? : Event → Option (Option String × List Event)
  | .text _ => none
  | .opening _ => none
  | .closing => none
  | .nested language events => some (language, events)
  | .finish => none

/-- **What a run does that can add to its relevance.** -/
inductive Deed where
  /-- A word of a keyword table is found. -/
  | finds (hit : Hit)
  /-- A text is handed on. -/
  | hands (block : Block)
  /-- An end closes a mode. -/
  | closes (mode : Nat)

namespace Deed

def hit? : Deed → Option Hit
  | finds hit => some hit
  | hands _ => none
  | closes _ => none

def block? : Deed → Option Block
  | finds _ => none
  | hands block => some block
  | closes _ => none

def closed? : Deed → Option Nat
  | finds _ => none
  | hands _ => none
  | closes mode => some mode

end Deed

/-- The words that are found. -/
def hitsOf (deeds : List Deed) : List Hit := deeds.filterMap Deed.hit?

/-- The texts that are handed on. -/
def blocksOf (deeds : List Deed) : List Block := deeds.filterMap Deed.block?

/-- The modes that ends close. -/
def closedBy (deeds : List Deed) : List Nat := deeds.filterMap Deed.closed?

variable {deeds more : List Deed} {deed : Deed}

@[simp] theorem hitsOf_append (deeds more : List Deed) :
    hitsOf (deeds ++ more) = hitsOf deeds ++ hitsOf more := List.filterMap_append

@[simp] theorem blocksOf_append (deeds more : List Deed) :
    blocksOf (deeds ++ more) = blocksOf deeds ++ blocksOf more := List.filterMap_append

@[simp] theorem closedBy_append (deeds more : List Deed) :
    closedBy (deeds ++ more) = closedBy deeds ++ closedBy more := List.filterMap_append

@[simp] theorem hitsOf_finds (hits : List Hit) : hitsOf (hits.map .finds) = hits := by
  unfold hitsOf
  rw [List.filterMap_map, show Deed.hit? ∘ Deed.finds = some from rfl, List.filterMap_some]

@[simp] theorem blocksOf_finds (hits : List Hit) : blocksOf (hits.map .finds) = [] :=
  List.filterMap_eq_nil_iff.mpr fun _ hmem => by
    obtain ⟨hit, _, rfl⟩ := List.mem_map.mp hmem
    rfl

@[simp] theorem closedBy_finds (hits : List Hit) : closedBy (hits.map .finds) = [] :=
  List.filterMap_eq_nil_iff.mpr fun _ hmem => by
    obtain ⟨hit, _, rfl⟩ := List.mem_map.mp hmem
    rfl

/-! ## 2. What they add -/

/-- **What words add**: each word as often as it counts, from the first time that it is found. -/
def wordsWorth (maxHits : Nat) (hits : List Hit) : Nat :=
  ∑ word ∈ (hits.map Hit.word).toFinset,
    (((hits.filter (·.word == word)).take maxHits).map Hit.relevance).sum

/-- What a mode adds that is closed: nothing if it was skipped or its text belonged to another
    language. -/
def closedWorth (arena : Arena) (id : Nat) : Nat :=
  if (arena.mode id).skip || (arena.mode id).subLanguage.isSome then 0 else (arena.mode id).relevance

/-- What a text adds that is handed on: nothing if its mode is worth nothing. -/
def handedWorth (arena : Arena) (b : Block) : Nat :=
  if 0 < (arena.mode b.mode).relevance then b.answer.relevance else 0

/-- **What deeds add to the relevance.** -/
def worth (s : Scene) (deeds : List Deed) : Nat :=
  ((closedBy deeds).map (closedWorth s.arena)).sum +
    wordsWorth s.options.maxKeywordHits (hitsOf deeds) +
    ((blocksOf deeds).map (handedWorth s.arena)).sum

/-- What the hits of one word add, given how often it has been found before. -/
def wordScore (maxHits : Nat) (before : String → Nat) (hits : List Hit) (word : String) : Nat :=
  (((hits.filter (·.word == word)).take (maxHits - before word)).map Hit.relevance).sum

theorem wordScore_cons (maxHits : Nat) (before : String → Nat) (hit : Hit) (hits : List Hit)
    (word : String) : wordScore maxHits before (hit :: hits) word =
      (if hit.word = word then if before hit.word + 1 ≤ maxHits then hit.relevance else 0 else 0) +
      wordScore maxHits (fun word => before word + if hit.word = word then 1 else 0) hits word := by
  simp only [wordScore]
  by_cases hword : hit.word = word
  · subst hword
    rw [List.filter_cons_of_pos (by simp), if_pos rfl, if_pos rfl]
    by_cases hcounts : before hit.word + 1 ≤ maxHits
    · have hleft : maxHits - before hit.word = maxHits - (before hit.word + 1) + 1 := by omega
      rw [if_pos hcounts, hleft, List.take_succ_cons, List.map_cons, List.sum_cons]
    · have h0 : maxHits - before hit.word = 0 := by omega
      have h1 : maxHits - (before hit.word + 1) = 0 := by omega
      rw [if_neg hcounts, h0, h1]
      rfl
  · rw [List.filter_cons_of_neg (by simpa using hword), if_neg hword, if_neg hword, Nat.zero_add,
      Nat.add_zero]

/-- **Hits that are counted one after the other add what they add word by word**, over any words that
    theirs are among. -/
theorem score_eq_sum (maxHits : Nat) (before : String → Nat) (hits : List Hit)
    {words : Finset String} (hwords : ∀ hit ∈ hits, hit.word ∈ words) :
    score maxHits before hits = ∑ word ∈ words, wordScore maxHits before hits word := by
  induction hits generalizing before with
  | nil =>
    refine (Finset.sum_eq_zero fun word _ => ?_).symm
    unfold wordScore
    rw [List.filter_nil, List.take_nil]
    rfl
  | cons hit hits ih =>
    rw [score, ih _ fun hit' hmem => hwords hit' (List.mem_cons_of_mem hit hmem)]
    simp only [wordScore_cons]
    rw [Finset.sum_add_distrib, Finset.sum_ite_eq, if_pos (hwords hit List.mem_cons_self)]

theorem score_eq_wordsWorth (maxHits : Nat) (hits : List Hit) :
    score maxHits (fun _ => 0) hits = wordsWorth maxHits hits :=
  score_eq_sum maxHits _ hits fun _ hmem => List.mem_toFinset.mpr (List.mem_map_of_mem hmem)

theorem worth_finds (s : Scene) (deeds : List Deed) (hits : List Hit) :
    worth s (deeds ++ hits.map .finds) = worth s deeds +
      score s.options.maxKeywordHits (timesAmong (hitsOf deeds)) hits := by
  have hscore : wordsWorth s.options.maxKeywordHits (hitsOf deeds ++ hits) =
      wordsWorth s.options.maxKeywordHits (hitsOf deeds) +
        score s.options.maxKeywordHits (timesAmong (hitsOf deeds)) hits := by
    rw [← score_eq_wordsWorth, ← score_eq_wordsWorth, score_append]
    simp only [Nat.zero_add]
  unfold worth
  rw [closedBy_append, hitsOf_append, blocksOf_append, closedBy_finds, hitsOf_finds, blocksOf_finds,
    List.append_nil, List.append_nil, hscore]
  omega

theorem worth_hands (s : Scene) (deeds : List Deed) (block : Block) :
    worth s (deeds ++ [.hands block]) = worth s deeds + handedWorth s.arena block := by
  have hhits : hitsOf [Deed.hands block] = [] := rfl
  have hclosed : closedBy [Deed.hands block] = [] := rfl
  have hblocks : blocksOf [Deed.hands block] = [block] := rfl
  unfold worth
  rw [closedBy_append, hitsOf_append, blocksOf_append, hhits, hclosed, hblocks, List.append_nil,
    List.append_nil, List.map_append, List.sum_append, List.map_singleton, List.sum_singleton]
  omega

theorem worth_closes (s : Scene) (deeds : List Deed) (id : Nat) :
    worth s (deeds ++ [.closes id]) = worth s deeds + closedWorth s.arena id := by
  have hhits : hitsOf [Deed.closes id] = [] := rfl
  have hclosed : closedBy [Deed.closes id] = [id] := rfl
  have hblocks : blocksOf [Deed.closes id] = [] := rfl
  unfold worth
  rw [closedBy_append, hitsOf_append, blocksOf_append, hhits, hclosed, hblocks, List.append_nil,
    List.append_nil, List.map_append, List.sum_append, List.map_singleton, List.sum_singleton]
  omega

/-! ## 3. Blocks that go on -/

/-- The modes in which a block has ended whose mode names its language so. -/
def topUnder (name : String) : Deed → Option (List Nat)
  | .finds _ => none
  | .hands block => if block.sub = .single name then some block.answer.top else none
  | .closes _ => none

/-- **The modes in which the last block has ended whose mode names its language so.** -/
def lastTop (name : String) (deeds : List Deed) : Option (List Nat) :=
  deeds.reverse.findSome? (topUnder name)

/-- The modes in which a block is to begin, after some deeds. -/
def resumption (deeds : List Deed) : SubLanguage → Option (List Nat)
  | .single name => lastTop name deeds
  | .list _ => none
  | .any => none

/-- **Every block goes on where the last one has ended whose mode names its language so.** -/
def Continued (deeds : List Deed) : Prop :=
  ∀ before block after, deeds = before ++ .hands block :: after →
    block.resumed = resumption before block.sub

theorem lastTop_concat (name : String) (deeds : List Deed) (deed : Deed) :
    lastTop name (deeds ++ [deed]) = (topUnder name deed).or (lastTop name deeds) := by
  unfold lastTop
  rw [List.reverse_append, List.reverse_singleton, List.singleton_append, List.findSome?_cons]
  cases topUnder name deed <;> rfl

theorem Continued.concat (h : Continued deeds)
    (hblock : ∀ block, deed = .hands block → block.resumed = resumption deeds block.sub) :
    Continued (deeds ++ [deed]) := by
  intro before block after heq
  rcases List.eq_nil_or_concat' after with rfl | ⟨after, last, rfl⟩
  · obtain ⟨rfl, hlast⟩ := List.append_inj' heq rfl
    exact hblock block (List.cons.inj hlast).1
  · rw [show before ++ .hands block :: (after ++ [last]) =
      (before ++ .hands block :: after) ++ [last] by simp] at heq
    exact h before block after (List.append_inj' heq rfl).1

/-- Deeds that hand nothing on under a name leave it where the last block of the name has ended. -/
theorem lastTop_append_of_other (name : String) (deeds : List Deed)
    (hmore : ∀ block ∈ blocksOf more, block.sub ≠ .single name) :
    lastTop name (deeds ++ more) = lastTop name deeds := by
  induction more using List.reverseRecOn with
  | nil => rw [List.append_nil]
  | append_singleton more deed ih =>
    rw [blocksOf_append, List.forall_mem_append] at hmore
    rw [← List.append_assoc, lastTop_concat, ih hmore.1]
    cases deed with
    | finds hit => rfl
    | hands block =>
      rw [topUnder, if_neg (hmore.2 block (List.mem_singleton_self block))]
      rfl
    | closes mode => rfl

theorem lastTop_append (name : String) (deeds : List Deed) (hmore : blocksOf more = []) :
    lastTop name (deeds ++ more) = lastTop name deeds :=
  lastTop_append_of_other name deeds (hmore ▸ fun _ hb => nomatch hb)

/-- Deeds that hand nothing on can follow any others. -/
theorem Continued.append (h : Continued deeds) (hmore : blocksOf more = []) :
    Continued (deeds ++ more) := by
  induction more using List.reverseRecOn with
  | nil => rwa [List.append_nil]
  | append_singleton more deed ih =>
    rw [blocksOf_append, List.append_eq_nil_iff] at hmore
    rw [← List.append_assoc]
    refine (ih hmore.1).concat fun block hblock => ?_
    subst hblock
    cases hmore.2

/-! ## 4. The deeds of a step -/

variable (s : Scene)

/-- The words that are found in a text told in a mode. -/
def textDeeds (id : Nat) (text : String) : List Deed :=
  match (s.arena.mode id).keywords with
  | none => []
  | some k =>
    let text := Text.ofString text
    ((identifiers k.regex text).filterMap (hitAt k text)).map .finds

/-- The words that are found in the groups of a delimiter without a label. -/
def partDeeds (id : Nat) (m : RuleMatch) (labels : Dictionary Nat (Option String)) : List Deed :=
  labels.entries.flatMap fun part =>
    if part.2.isSome then [] else textDeeds s id (partText s m part.1)

/-- The modes that a run has kept for the next text of a sub-language. -/
def Run.resumption (r : Run) : SubLanguage → Option (List Nat)
  | .single name => r.blocks.get? name
  | .list _ => none
  | .any => none

/-- The text of a sub-language that is handed on, if there is such a language. -/
def blockOf (r : Run) (sub : SubLanguage) (text : String) : Option Block :=
  if text.isEmpty then none
  else do
    let x ← s.delegate.ask sub text (r.resumption sub)
    let answer ← x.result.toOption
    return ⟨s.topId r.frames, sub, text, r.resumption sub, answer⟩

/-- The deeds of telling what is held back. -/
def flushDeeds (r : Run) : List Deed :=
  match (s.top r).subLanguage with
  | some sub => (blockOf s r sub r.buffer).toList.map .hands
  | none => textDeeds s (s.topId r.frames) r.buffer

/-- The deeds of a mode that opens inside another. -/
def startDeeds (id outer : Nat) (m : RuleMatch) : List Deed :=
  match (s.arena.mode id).beginScope with
  | some (.parts labels) => partDeeds s outer m labels
  | _ => []

/-- The deeds of a beginning that counts. -/
def beginDeeds (id : Nat) (m : RuleMatch) (r : Run) : List Deed :=
  (if (s.arena.mode id).skip then []
    else flushDeeds s (if (s.arena.mode id).excludeBegin then r.hold (lexeme s m) else r)) ++
  startDeeds s id (s.topId r.frames) m

/-- The deeds of the text before an end, and of the end. -/
def holdEndDeeds (mode : ArenaMode) (m : RuleMatch) (r : Run) : List Deed :=
  match mode.endScope with
  | some (.wrap _) => flushDeeds s r
  | some (.parts labels) => flushDeeds s r ++ partDeeds s (s.topId r.frames) m labels
  | none =>
    if mode.skip then []
    else flushDeeds s (if mode.returnEnd || mode.excludeEnd then r else r.hold (lexeme s m))

/-- The deeds of a mode that is started, if one is. -/
def startedDeeds (outer : Nat) (m : RuleMatch) : Option Nat → List Deed
  | none => []
  | some next => startDeeds s next outer m

/-- **The deeds of an end that closes modes**, as many as `n` says: the text before it is told, the
    modes close from the innermost outward, and another may start. -/
def endDeeds (m : RuleMatch) (n : Nat) (r : Run) : List Deed :=
  holdEndDeeds s (s.top r) m r ++ (r.frames.take n).map (fun f => .closes f.mode) ++
    startedDeeds s (s.topId (r.frames.drop n)) m (startedBy s r.frames n)

/-- Whether the beginning of a mode counts. -/
def opens (id : Nat) (m : RuleMatch) : Bool :=
  !((s.arena.mode id).skipAfterDot && afterDot s.text m.span.start) &&
    ((askHook? s (s.arena.mode id).onBegin m .empty).result.toOption.any (·.1))

/-- The deeds of a match, once the text before it is held back. -/
def actDeeds (m : RuleMatch) (r : Run) : List Deed :=
  match m.kind with
  | .begins id => if opens s id m then beginDeeds s id m r else []
  | .ends =>
    match (endOf s m r.frames).result with
    | .ok (some n, frames) => endDeeds s m n { r with frames }
    | .ok (none, _) => []
    | .error _ => []
  | .illegal => []

/-- **The deeds of a step.** -/
def stepDeeds (m : RuleMatch) (r : Run) : List Deed :=
  if isEmptyMode m r.last then [] else actDeeds s m (r.meet s m)

/-! ## 5. The deeds of a run -/

/-- The deeds of a round. -/
def roundDeeds (r : Run) : List Deed :=
  match lookUp s r with
  | .ok (some m, first) => stepDeeds s m (r.atRule first)
  | .ok (none, _) => []
  | .error _ => []

/-- The deeds of the rounds of a run, of which `steps` have been taken, and of telling what is left. -/
def deedsFrom : Nat → Nat → Run → List Deed
  | 0, _, _ => []
  | fuel + 1, steps, r =>
    match turn s (steps + 1) r with
    | .next _ r' => roundDeeds s r ++ deedsFrom fuel (steps + 1) r'
    | .last _ r' => roundDeeds s r ++ flushDeeds s (r'.hold (s.text.slice r'.index s.text.size))
    | .broken _ _ => []

/-- **The deeds of a whole run.** -/
def runDeeds (continuation : Option (List Nat)) : List Deed :=
  deedsFrom s (maxSteps s) 0 (initial s.arena continuation)

end Highlight.Scan
