import Highlight.Proofs.Arena.Rules
import Highlight.Scan.Loop

/-!
# The rounds of a run

* `Run.meet`, `act` -- a step, once the text before its match is held back;
* `Reached`, `afterRounds?`, `Between` -- the states that a run comes to between its rounds;
* `reached_unique`, `exists_reached`, `le_of_over` -- there is one after each round, up to the last;
* `turn_of_none`, `turn_of_ok` and their like -- what a round comes to, by what it finds;
* `turn_next`, `turn_last`, `turn_broken` -- what a round does, by what it comes to;
* `not_next_of_maxSteps` -- the guard ends a run at the latest with its last admissible round;
* `LosesHeadway` -- a run that the guard ends;
* `Ends`, `ends_scanAll`, `scanAll_of_last` -- what a whole run comes to;
* `invariant` -- what a run keeps up holds at every point between its rounds.
-/

namespace Highlight.Scan

open Highlight.Arena (Finds RuleKind RuleMatch)
open Highlight.Grammar (HookNote)

variable {s : Scene} {continuation : Option (List Nat)} {k n steps : Nat} {r r' : Run}
  {notes : List HookNote} {f : Fault}

/-! ## 1. One step -/

/-- What a run keeps for its next search. -/
structure Marks where
  firstRule : Nat
  resumes : Bool
  last : Option (RuleKind × Nat)

def Run.marks (r : Run) : Marks := ⟨r.firstRule, r.resumes, r.last⟩

section Step

variable {m : RuleMatch}

/-- What a step makes of a match, once the text before it is held back. -/
def act (s : Scene) (m : RuleMatch) (r : Run) : Attempt Run :=
  match m.kind with
  | .begins id => beginStep s id m r
  | .ends => endStep s m r
  | .illegal =>
    if s.ignoreIllegals then pure (passIllegal s m r)
    else .fail (s.fault (.illegalLexeme (lexeme s m) (s.top r).shownLabel) m.span.start)

/-- The text before a match is held back, and the match is noted. -/
def Run.meet (s : Scene) (m : RuleMatch) (r : Run) : Run :=
  { (r.hold (s.text.slice r.index m.span.start)) with last := some (m.kind, m.span.start) }

theorem step_of_not_empty (h : isEmptyMode m r.last = false) : step s m r = act s m (r.meet s m) := by
  have h' : isEmptyMode m (r.hold (s.text.slice r.index m.span.start)).last = false := h
  unfold step
  simp only [h', Bool.false_eq_true, if_false]
  rfl

theorem step_of_empty (h : isEmptyMode m r.last = true) :
    step s m r = if s.options.safeMode then
        pure (passChar s m.span.start (r.hold (s.text.slice r.index m.span.start)))
      else .fail (s.fault (.zeroWidthMatch s.arena.name) m.span.start) := by
  have h' : isEmptyMode m (r.hold (s.text.slice r.index m.span.start)).last = true := h
  unfold step
  simp only [h', if_true]

end Step

/-! ## 2. One round -/

/-- The search of a round: its answer, with the number of the rule that the next search begins at. -/
def lookUp (s : Scene) (r : Run) : Except Cause (Option Arena.RuleMatch × Nat) :=
  (s.top r).rules.next s.text r.index (if r.resumes then r.firstRule else 0)

/-- The state in which a match is handled. -/
def Run.atRule (r : Run) (first : Nat) : Run := { r with resumes := false, firstRule := first }

theorem turn_of_unplaced {cause : Cause} (h : lookUp s r = .error cause) :
    turn s steps r = .broken [] (.unplaced cause) := by
  unfold turn
  rw [show (s.top r).rules.next s.text r.index (if r.resumes then r.firstRule else 0) = _ from h]

theorem turn_of_none {first : Nat} (h : lookUp s r = .ok (none, first)) :
    turn s steps r = .last [] (r.atRule first) := by
  unfold turn
  rw [show (s.top r).rules.next s.text r.index (if r.resumes then r.firstRule else 0) = _ from h]
  rfl

section Found

variable {m : RuleMatch} {first : Nat} (h : lookUp s r = .ok (some m, first))

include h

theorem turn_of_lacksHeadway (hlacks : lacksHeadway s steps m.span.start = true) :
    turn s steps r = .broken [] (s.fault (.infiniteLoop steps) m.span.start) := by
  unfold turn
  rw [show (s.top r).rules.next s.text r.index (if r.resumes then r.firstRule else 0) = _ from h]
  simp only [hlacks, if_true]

theorem turn_of_error (hlacks : lacksHeadway s steps m.span.start = false)
    (hstep : step s m (r.atRule first) = ⟨notes, .error f⟩) : turn s steps r = .broken notes f := by
  unfold turn
  rw [show (s.top r).rules.next s.text r.index (if r.resumes then r.firstRule else 0) = _ from h]
  unfold Run.atRule at hstep
  simp only [hlacks, hstep, Bool.false_eq_true, if_false]

theorem turn_of_ok (hlacks : lacksHeadway s steps m.span.start = false)
    (hstep : step s m (r.atRule first) = ⟨notes, .ok r'⟩) :
    turn s steps r = if s.text.size < r'.index then .last notes r' else .next notes r' := by
  unfold turn
  rw [show (s.top r).rules.next s.text r.index (if r.resumes then r.firstRule else 0) = _ from h]
  unfold Run.atRule at hstep
  simp only [hlacks, hstep, Bool.false_eq_true, if_false]

end Found

/-- A round after which the run goes on has handled a match that its rules find. -/
theorem turn_next (h : turn s steps r = .next notes r') :
    ∃ m first, lookUp s r = .ok (some m, first) ∧ step s m (r.atRule first) = ⟨notes, .ok r'⟩ ∧
      lacksHeadway s steps m.span.start = false ∧ r'.index ≤ s.text.size := by
  unfold turn at h
  split at h
  · cases h
  · cases h
  · rename_i m first hfound
    split at h
    · cases h
    · rename_i hheadway
      split at h
      · cases h
      · rename_i more r1 hstep
        split at h
        · cases h
        · rename_i hindex
          cases h
          exact ⟨m, first, hfound, hstep, by simpa using hheadway, Nat.le_of_not_lt hindex⟩

/-- A last round has found nothing, or it has handled a match and passed the end of the text. -/
theorem turn_last (h : turn s steps r = .last notes r') :
    (∃ first, lookUp s r = .ok (none, first) ∧ notes = [] ∧ r' = r.atRule first) ∨
    (∃ m first, lookUp s r = .ok (some m, first) ∧ step s m (r.atRule first) = ⟨notes, .ok r'⟩ ∧
      s.text.size < r'.index) := by
  unfold turn at h
  split at h
  · cases h
  · rename_i first hfound
    cases h
    exact .inl ⟨first, hfound, rfl, rfl⟩
  · rename_i m first hfound
    split at h
    · cases h
    · split at h
      · cases h
      · rename_i more r1 hstep
        split at h
        · rename_i hindex
          cases h
          exact .inr ⟨m, first, hfound, hstep, hindex⟩
        · cases h

/-- A broken round has no merged pattern to search with, lacks headway, or has not been able to
    handle its match. -/
theorem turn_broken (h : turn s steps r = .broken notes f) :
    (∃ cause, lookUp s r = .error cause ∧ f = .unplaced cause) ∨
    (∃ m first, lookUp s r = .ok (some m, first) ∧ lacksHeadway s steps m.span.start = true ∧
      f = s.fault (.infiniteLoop steps) m.span.start) ∨
    (∃ m first, lookUp s r = .ok (some m, first) ∧
      step s m (r.atRule first) = ⟨notes, .error f⟩) := by
  unfold turn at h
  split at h
  · rename_i cause hfound
    cases h
    exact .inl ⟨cause, hfound, rfl⟩
  · cases h
  · rename_i m first hfound
    split at h
    · rename_i hlacks
      cases h
      exact .inr (.inl ⟨m, first, hfound, hlacks, rfl⟩)
    · split at h
      · rename_i more f1 hstep
        cases h
        exact .inr (.inr ⟨m, first, hfound, hstep⟩)
      · split at h <;> cases h

/-! ## 3. The guard -/

theorem byteOffsetFrom_le : ∀ (cs : List Char) (i j : Nat), i ≤ j →
    Text.byteOffsetFrom cs i ≤ Text.byteOffsetFrom cs j
  | [], _, _, h => h
  | _ :: _, 0, _, _ => Nat.zero_le _
  | c :: cs, i + 1, j + 1, h =>
      Nat.add_le_add_left (byteOffsetFrom_le cs i j (Nat.le_of_succ_le_succ h)) c.utf8Size

theorem boundedMul_le {m m' : Nat} (k : Nat) (h : m ≤ m') : boundedMul m k ≤ boundedMul m' k := by
  have hm : m * k ≤ m' * k := Nat.mul_le_mul_right k h
  unfold boundedMul
  omega

/-- **The guard ends a run at the latest with its last admissible round**: it does not go on after
    it. -/
theorem not_next_of_maxSteps (h : maxSteps s ≤ steps) : turn s steps r ≠ .next notes r' := by
  intro hturn
  obtain ⟨m, first, hfound, _, hheadway, _⟩ := turn_next hturn
  have hsize : m.span.start ≤ s.text.size := by
    have hf := Arena.finds_next hfound
    exact Nat.le_trans hf.ordered hf.stop_le
  have hbytes := boundedMul_le s.options.loopIterationRatio
    (byteOffsetFrom_le s.text.toList _ _ hsize)
  have hlacks : lacksHeadway s steps m.span.start = true := by
    unfold maxSteps at h
    unfold lacksHeadway
    simp only [Bool.and_eq_true, decide_eq_true_eq]
    unfold Text.byteOffset at h ⊢
    omega
  rw [hlacks] at hheadway
  cases hheadway

/-! ## 4. Whole runs -/

/-- **The states of a run between its rounds**, with how many rounds it has taken. -/
inductive Reached (s : Scene) (continuation : Option (List Nat)) : Nat → Run → Prop
  | start : Reached s continuation 0 (initial s.arena continuation)
  | next {n : Nat} {r r' : Run} {notes : List HookNote} : Reached s continuation n r →
      turn s (n + 1) r = .next notes r' → Reached s continuation (n + 1) r'

/-- The state after a number of rounds is one only. -/
theorem reached_unique (h : Reached s continuation n r) (h' : Reached s continuation n r') :
    r = r' := by
  induction h generalizing r' with
  | start =>
    cases h'
    rfl
  | next _ hturn ih =>
    cases h' with
    | next h0 hturn' =>
      cases ih h0
      cases hturn.symm.trans hturn'
      rfl

/-- A run has been in a state before each round that it has taken, and went on from there. -/
theorem exists_reached (h : Reached s continuation n r) (hk : k < n) :
    ∃ r0 notes r1, Reached s continuation k r0 ∧ turn s (k + 1) r0 = .next notes r1 := by
  induction h with
  | start => exact absurd hk (Nat.not_lt_zero k)
  | next h0 hturn ih =>
    rcases Nat.lt_succ_iff_lt_or_eq.mp hk with hlt | rfl
    · exact ih hlt
    · exact ⟨_, _, _, h0, hturn⟩

/-- A run that does not go on after a round has been in no state behind it. -/
theorem le_of_over (h : Reached s continuation n r) (h' : Reached s continuation k r')
    (hover : ∀ notes r1, turn s (k + 1) r' ≠ .next notes r1) : n ≤ k := by
  refine Nat.le_of_not_lt fun hlt => ?_
  obtain ⟨r0, notes, r1, hr0, hturn⟩ := exists_reached h hlt
  cases reached_unique hr0 h'
  exact hover notes r1 hturn

/-- The state that a run comes to in some rounds, if it goes on so long. -/
def afterRounds? (s : Scene) (continuation : Option (List Nat)) : Nat → Option Run
  | 0 => some (initial s.arena continuation)
  | n + 1 => (afterRounds? s continuation n).bind fun r =>
    match turn s (n + 1) r with
    | .next _ r' => some r'
    | .last _ _ => none
    | .broken _ _ => none

theorem reached_of_afterRounds? (h : afterRounds? s continuation n = some r) :
    Reached s continuation n r := by
  induction n generalizing r with
  | zero =>
    cases h
    exact .start
  | succ n ih =>
    obtain ⟨r0, hr0, hr⟩ := Option.bind_eq_some_iff.mp h
    cases hturn : turn s (n + 1) r0 with
    | next notes r' =>
      rw [hturn] at hr
      cases hr
      exact .next (ih hr0) hturn
    | last notes r' => rw [hturn] at hr; cases hr
    | broken notes f => rw [hturn] at hr; cases hr

/-- **The states of a run between its steps**: before each round, and after the last one. -/
def Between (s : Scene) (continuation : Option (List Nat)) (r : Run) : Prop :=
  (∃ n, Reached s continuation n r) ∨
  ∃ n r0 notes, Reached s continuation n r0 ∧ turn s (n + 1) r0 = .last notes r

/-- **A run that makes no headway**, with the fault that the guard ends it with. -/
inductive LosesHeadway (s : Scene) (continuation : Option (List Nat)) : Fault → Prop
  | stopped {n first : Nat} {r : Run} {m : Arena.RuleMatch} : Reached s continuation n r →
      lookUp s r = .ok (some m, first) → lacksHeadway s (n + 1) m.span.start = true →
      LosesHeadway s continuation (s.fault (.infiniteLoop (n + 1)) m.span.start)

/-- What a whole run can come to: it is completed after a last round, or ended by a broken one. -/
inductive Ends (s : Scene) (continuation : Option (List Nat)) : Scanned → Prop
  | completed {n : Nat} {r r' : Run} {more : List HookNote} (notes : List HookNote) :
      Reached s continuation n r → turn s (n + 1) r = .last more r' →
      Ends s continuation (complete s notes r')
  | broken {n : Nat} {r : Run} {f : Fault} {more : List HookNote} (notes : List HookNote) :
      Reached s continuation n r → turn s (n + 1) r = .broken more f →
      Ends s continuation (broken notes r.frames r.events f)

theorem ends_scan {fuel : Nat} (hr : Reached s continuation n r) (hn : fuel + n = maxSteps s)
    (hfuel : 0 < fuel) : Ends s continuation (scan s fuel n notes r) := by
  induction fuel generalizing n r notes with
  | zero => omega
  | succ fuel ih =>
    unfold scan
    cases h : turn s (n + 1) r with
    | next more r1 =>
      have h1 : ¬maxSteps s ≤ n + 1 := fun hmax => not_next_of_maxSteps hmax h
      exact ih (.next hr h) (by omega) (by omega)
    | last more r1 => exact .completed _ hr h
    | broken more f => exact .broken _ hr h

/-- **A whole run is completed, or ended by a fault; it never runs out of rounds.** -/
theorem ends_scanAll (s : Scene) (continuation : Option (List Nat)) :
    Ends s continuation (scanAll s continuation) :=
  ends_scan .start rfl (Nat.succ_pos _)

/-- **A run that has a last round is completed there.** -/
theorem scanAll_of_last {more : List HookNote} (hr : Reached s continuation n r)
    (hturn : turn s (n + 1) r = .last more r') :
    ∃ notes, scanAll s continuation = complete s notes r' := by
  have hlast : ∀ {k : Nat} {r1 : Run}, Reached s continuation k r1 →
      (∀ notes r2, turn s (k + 1) r1 ≠ .next notes r2) → n = k ∧ r = r1 := fun hr1 hover => by
    obtain rfl := Nat.le_antisymm (le_of_over hr hr1 hover)
      (le_of_over hr1 hr fun notes r2 hnext => by cases hturn.symm.trans hnext)
    exact ⟨rfl, reached_unique hr hr1⟩
  have hends := ends_scanAll s continuation
  generalize scanAll s continuation = scanned at hends
  cases hends with
  | completed notes hr1 hturn1 =>
    obtain ⟨rfl, rfl⟩ := hlast hr1 fun notes r2 hnext => by cases hturn1.symm.trans hnext
    cases hturn.symm.trans hturn1
    exact ⟨notes, rfl⟩
  | broken notes hr1 hturn1 =>
    obtain ⟨rfl, rfl⟩ := hlast hr1 fun notes r2 hnext => by cases hturn1.symm.trans hnext
    cases hturn.symm.trans hturn1

/-- **What a run begins with and keeps up in every round holds at every point between them.** -/
theorem invariant {P : Run → Prop} (hstart : P (initial s.arena continuation))
    (hnext : ∀ {steps r notes r'}, P r → turn s steps r = .next notes r' → P r')
    (hr : Reached s continuation n r) : P r := by
  induction hr with
  | start => exact hstart
  | next _ hturn ih => exact hnext ih hturn

end Highlight.Scan
