import Highlight.Proofs.Scan.Ledger

/-!
# The texts that a run hands on

Each text that a run hands on is put to its delegate, and goes on where the last one of its name has
ended.

* `Answered` -- a block is what the delegate has answered;
* `answered_flushDeeds`, `answered_stepDeeds`, `answered_runDeeds` -- **all blocks of a run are**;
* `resumed_of_deeds` -- **where the second of two blocks goes on**, by their names.
-/

namespace Highlight.Scan

open Highlight.Arena (ArenaMode RuleMatch ScopeEmit)
open Highlight.Grammar (SubLanguage)

variable {s : Scene} {r : Run} {deeds more : List Deed} {m : RuleMatch}
  {continuation : Option (List Nat)}

/-! ## 1. Answers -/

/-- **A block is what the delegate has answered**: it was asked about some text. -/
structure Answered (s : Scene) (b : Block) : Prop where
  full : b.text ≠ ""
  answer : ∃ x, s.delegate.ask b.sub b.text b.resumed = some x ∧ x.result = .ok b.answer

/-- All blocks among some deeds are answered. -/
def AllAnswered (s : Scene) (deeds : List Deed) : Prop := ∀ b ∈ blocksOf deeds, Answered s b

theorem AllAnswered.append (h : AllAnswered s deeds) (h' : AllAnswered s more) :
    AllAnswered s (deeds ++ more) := by
  unfold AllAnswered
  rw [blocksOf_append, List.forall_mem_append]
  exact ⟨h, h'⟩

theorem AllAnswered.of_none (h : blocksOf deeds = []) : AllAnswered s deeds := by
  unfold AllAnswered
  rw [h]
  exact fun _ hb => nomatch hb

theorem answered_blockOf {sub : SubLanguage} {text : String} {b : Block}
    (h : blockOf s r sub text = some b) : Answered s b := by
  unfold blockOf at h
  split at h
  · cases h
  · rename_i hfull
    obtain ⟨x, hask, h⟩ := Option.bind_eq_some_iff.mp h
    obtain ⟨answer, hx, h⟩ := Option.bind_eq_some_iff.mp h
    cases h
    refine ⟨by simpa using hfull, x, hask, ?_⟩
    cases hresult : x.result with
    | ok a =>
      rw [hresult] at hx
      cases hx
      rfl
    | error f =>
      rw [hresult] at hx
      cases hx

/-! ## 2. The blocks of a step -/

theorem blocksOf_textDeeds (s : Scene) (id : Nat) (text : String) :
    blocksOf (textDeeds s id text) = [] := by
  unfold textDeeds
  split
  · rfl
  · exact blocksOf_finds _

theorem blocksOf_partDeeds (s : Scene) (id : Nat) (m : RuleMatch)
    (labels : Dictionary Nat (Option String)) : blocksOf (partDeeds s id m labels) = [] := by
  unfold partDeeds blocksOf
  rw [List.filterMap_flatMap, List.flatMap_eq_nil_iff]
  intro part _
  split
  · rfl
  · exact blocksOf_textDeeds s id _

theorem blocksOf_startDeeds (s : Scene) (id outer : Nat) (m : RuleMatch) :
    blocksOf (startDeeds s id outer m) = [] := by
  unfold startDeeds
  split
  · exact blocksOf_partDeeds s outer m _
  · rfl

theorem answered_flushDeeds (s : Scene) (r : Run) : AllAnswered s (flushDeeds s r) := by
  unfold flushDeeds
  split
  · rename_i sub hsub
    cases hblock : blockOf s r sub r.buffer with
    | none => exact .of_none rfl
    | some b =>
      intro b' hb'
      cases List.mem_singleton.mp hb'
      exact answered_blockOf hblock
  · exact .of_none (blocksOf_textDeeds s _ _)

/-- The text that is told at a delimiter is put to the delegate, whatever is told of the delimiter. -/
theorem answered_beginDeeds (s : Scene) (id : Nat) (m : RuleMatch) (r : Run) :
    AllAnswered s (beginDeeds s id m r) := by
  unfold beginDeeds
  refine .append ?_ (.of_none (blocksOf_startDeeds s id _ m))
  split
  · exact .of_none rfl
  · exact answered_flushDeeds s _

theorem answered_holdEndDeeds (s : Scene) (mode : ArenaMode) (m : RuleMatch) (r : Run) :
    AllAnswered s (holdEndDeeds s mode m r) := by
  unfold holdEndDeeds
  split
  · exact answered_flushDeeds s r
  · exact (answered_flushDeeds s r).append (.of_none (blocksOf_partDeeds s _ m _))
  · split
    · exact .of_none rfl
    · exact answered_flushDeeds s _

theorem answered_endDeeds (s : Scene) (m : RuleMatch) (n : Nat) (r : Run) :
    AllAnswered s (endDeeds s m n r) := by
  unfold endDeeds
  refine ((answered_holdEndDeeds s _ m r).append (.of_none ?_)).append (.of_none ?_)
  · unfold blocksOf
    rw [List.filterMap_map]
    exact List.filterMap_eq_nil_iff.mpr fun _ _ => rfl
  · unfold startedDeeds
    split
    · rfl
    · exact blocksOf_startDeeds s _ _ m

/-- **All blocks of a step are answered.** -/
theorem answered_stepDeeds (s : Scene) (m : RuleMatch) (r : Run) : AllAnswered s (stepDeeds s m r) := by
  unfold stepDeeds
  split
  · exact .of_none rfl
  · unfold actDeeds
    split
    · split
      · exact answered_beginDeeds s _ m _
      · exact .of_none rfl
    · split
      · exact answered_endDeeds s m _ _
      · exact .of_none rfl
      · exact .of_none rfl
    · exact .of_none rfl

/-! ## 3. The blocks of a run -/

theorem answered_roundDeeds (s : Scene) (r : Run) : AllAnswered s (roundDeeds s r) := by
  unfold roundDeeds
  split
  · exact answered_stepDeeds s _ _
  · exact .of_none rfl
  · exact .of_none rfl

theorem answered_deedsFrom (s : Scene) (fuel steps : Nat) (r : Run) :
    AllAnswered s (deedsFrom s fuel steps r) := by
  induction fuel generalizing steps r with
  | zero => exact .of_none rfl
  | succ fuel ih =>
    unfold deedsFrom
    split
    · exact (answered_roundDeeds s r).append (ih _ _)
    · exact (answered_roundDeeds s r).append (answered_flushDeeds s _)
    · exact .of_none rfl

/-- **All blocks of a run are answered.** -/
theorem answered_runDeeds (s : Scene) (continuation : Option (List Nat)) :
    AllAnswered s (runDeeds s continuation) := answered_deedsFrom s _ _ _

/-- **Where the second of two blocks goes on**: where the first one has ended if their modes name their
    language alike, and no block between them does; and else where the last block before them has
    ended that does. -/
theorem resumed_of_deeds {b b' : Block} {name name' : String} {before between after : List Deed}
    (hdeeds : runDeeds s continuation =
      before ++ .hands b :: (between ++ .hands b' :: after))
    (hb : b.sub = .single name) (hb' : b'.sub = .single name')
    (hbetween : ∀ c ∈ blocksOf between, c.sub ≠ .single name') :
    b'.resumed = if name = name' then some b.answer.top else lastTop name' before := by
  have hsplit : runDeeds s continuation =
      ((before ++ [.hands b]) ++ between) ++ .hands b' :: after := by simp [hdeeds]
  have hresumed := continued_runDeeds s continuation _ _ _ hsplit
  rw [hresumed, hb', resumption, lastTop_append_of_other name' _ hbetween, lastTop_concat, topUnder, hb]
  by_cases heq : name = name'
  · rw [if_pos (by rw [heq]), if_pos heq]
    rfl
  · rw [if_neg (by simpa using heq), if_neg heq]
    rfl

end Highlight.Scan
