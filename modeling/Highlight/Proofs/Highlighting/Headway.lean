import Highlight.Proofs.Highlighting.Delegation

/-!
# Where a run without headway stops

The guard ends a run that makes no headway, and no run around it is mended: the fault is passed on to
the outermost one. So such a fault was raised in a run that text was handed to, one run after the
other.

* `Asks.origin` -- a fault was the answer to some question, or has nothing to do with the answers;
* `waits_andThen` -- what comes after some questions is waited for too;
* `origin_turn`, `origin_scan` -- where a round, and a whole run, has such a fault from;
* `losesHeadway_of_error` -- in which run the guard has raised it.
-/

namespace Highlight.Highlighter

open Highlight.Arena (compileLanguage)
open Highlight.Grammar (HookNote Language)
open Highlight.Scan

variable {h : Highlighter} {run : Runner} {c c' : Call} {f f' : Fault}

/-! ## 1. Where a fault comes from -/

/-- The runner that fails with another fault wherever it would fail with a given one. -/
def Runner.avoiding (run : Runner) (f f' : Fault) : Runner :=
  fun name code ignoreIllegals continuation =>
    match (run name code ignoreIllegals continuation).result with
    | .error e => if e = f then .fail f' else run name code ignoreIllegals continuation
    | .ok _ => run name code ignoreIllegals continuation

theorem avoiding_ne (run : Runner) (hne : f' ≠ f) (c : Call) :
    ((run.avoiding f f').at c).result ≠ .error f := by
  unfold Runner.at Runner.avoiding
  split
  · rename_i e he
    split
    · exact fun heq => hne (Except.error.inj heq)
    · rename_i hef
      rw [he]
      exact fun heq => hef (Except.error.inj heq)
  · rename_i o ho
    rw [ho]
    exact fun heq => by cases heq

theorem avoiding_of_ne {run : Runner} (hc : (run.at c).result ≠ .error f) :
    (run.avoiding f f').at c = run.at c := by
  unfold Runner.at Runner.avoiding
  split
  · rename_i e he
    refine if_neg fun heq => hc ?_
    rw [← heq]
    exact he
  · rfl

section Questions

variable {β γ : Type} [Faulty β] [Faulty γ] {Q : Call → Prop} {P : β → Prop} {F : Runner → β}

/-- What asks comes to what it is said to come to. -/
theorem Asks.meets (hF : Asks Q P F) (hlive : Live (F run)) : P (F run) := by
  induction hF with
  | settled hb _ => exact hb
  | ask _ _ hk ih => exact ih _ (fun f hf => hlive f (hk _ _ _ hf)) hlive

/-- What asks comes to the same with every runner that gives the same answers to it. -/
theorem Asks.congr {run' : Runner} (hF : Asks Q P F) (hlive : Live (F run))
    (hsame : ∀ c, Waits F run c → run'.at c = run.at c) : F run' = F run := by
  induction hF with
  | settled _ _ => rfl
  | @ask c k _ _ hk ih =>
    have hc : Live (run.at c) := fun f hf => hlive f (hk _ _ _ hf)
    have hfirst : run'.at c = run.at c := hsame c (waits_first hk run)
    show k (run'.at c) run' = k (run.at c) run
    rw [hfirst]
    refine ih _ hc hlive fun c' hw => ?_
    by_cases heq : c = c'
    · exact heq ▸ hfirst
    · exact hsame c' ((waits_next heq).mpr hw)

/-- **A fault was the answer to some question, or it has nothing to do with the answers**: another
    runner, that never fails with it, would have led to the same. -/
theorem Asks.origin (hF : Asks Q P F) (hlive : Live (F run)) (f : Fault) :
    (∃ c, Waits F run c ∧ (run.at c).result = .error f) ∨
    ∃ run' : Runner, (∀ c, (run'.at c).result ≠ .error f) ∧ F run' = F run := by
  by_cases hfails : ∃ c, Waits F run c ∧ (run.at c).result = .error f
  · exact .inl hfails
  · obtain ⟨f', _, hne⟩ := exists_other f
    refine .inr ⟨run.avoiding f f', avoiding_ne run hne, hF.congr hlive fun c hw => ?_⟩
    exact avoiding_of_ne fun heq => hfails ⟨c, hw, heq⟩

/-- **What comes after some questions is waited for too.** -/
theorem waits_andThen {g : β → Runner → γ} (hF : Asks Q P F) (hlive : Live (F run))
    (hstuck : ∀ b R f, Stuck b f → Stuck (g b R) f) (hw : Waits (g (F run)) run c') :
    Waits (fun R => g (F R) R) run c' := by
  induction hF with
  | settled _ _ => exact hw
  | @ask c k _ _ hk ih =>
    have hc : Live (run.at c) := fun f hf => hlive f (hk _ _ _ hf)
    have hstuck' : ∀ x R f, Stuck x f → Stuck (g (k x R) R) f :=
      fun x R f hf => hstuck _ R f (hk x R f hf)
    by_cases heq : c = c'
    · exact heq ▸ waits_first (k := fun x R => g (k x R) R) hstuck' run
    · exact (waits_next (k := fun x R => g (k x R) R) heq).mpr (ih _ hc hlive hw)

end Questions

/-! ## 2. Rounds -/

section Rounds

variable {name : String} {language : Language} {s : Scene} {continuation : Option (List Nat)}
  {r r' : Run} {steps : Nat} {more notes : List HookNote}

theorem not_endlessDelegation (hf : f.cause.isInfiniteLoop = true) :
    f.cause ≠ .endlessDelegation := by
  intro hcause
  rw [hcause] at hf
  cases hf

/-- Where no nested run has failed for want of headway, no step has. -/
theorem not_stepFails (hf : f.cause.isInfiniteLoop = true)
    (hnever : ∀ c, (run.at c).result ≠ .error f) : ¬ StepFails (asking s h run) f := by
  intro hstep
  cases hstep with
  | panicked _ _ _ => cases hf
  | delegated _ hfails =>
    obtain ⟨b, _, _, ignoreIllegals, continuation, _, hrun⟩ := fails_delegateTo hfails
    exact hnever ⟨b, _, ignoreIllegals, continuation⟩ hrun
  | illegal _ _ _ _ => cases hf
  | zeroWidth _ _ => cases hf

/-- The text that is left is handed on to a run that has been stopped, if telling it lacks
    headway. -/
theorem origin_complete (hf : f.cause.isInfiniteLoop = true) (hr : Holds s r r.index)
    (hin : InStep s r) (hfault : (complete (asking s h run) notes r).fault = some f) :
    ∃ c, Waits (fun R => complete (asking s h R) notes r) run c ∧ (run.at c).result = .error f := by
  have hlive : Live (complete (asking s h run) notes r) := by
    intro f' hstuck
    cases hfault.symm.trans hstuck.1
    exact not_endlessDelegation hf hstuck.2
  rcases (asks_complete hr notes).origin hlive f with hasked | ⟨run', hnever, heq⟩
  · exact hasked
  · exfalso
    have hheld : InStep (asking s h run')
        (r.hold ((asking s h run').text.slice r.index (asking s h run').text.size)) :=
      ⟨hin.inRange, hin.opened⟩
    rw [← heq] at hfault
    unfold complete at hfault
    simp only at hfault
    split at hfault
    · cases hfault
    · rename_i more e hflushed
      cases hfault
      exact not_stepFails hf hnever ((inStep_flush hheld).2 f (by rw [hflushed]))

/-- What is held back between the rounds of a run. -/
theorem holds_reached (hr : Reached (asking s h run) continuation steps r) :
    Holds s r r.index := by
  refine invariant (s := asking s h run) (P := fun r => Holds s r r.index)
    (fun _ => held_initial continuation) (fun {steps r notes r'} hr hturn => ?_) hr
  have hlive : Live (turn (asking s h run) steps r) := by
    rw [hturn]
    exact fun f hf => by cases hf.1
  have hmeets := (asks_turn hr steps).meets hlive
  rw [hturn] at hmeets
  exact hmeets

include name language

variable (hc : compileLanguage name language = .ok s.arena)

include hc

/-- **A round that lacks headway has been stopped itself, or a run that it waits for.** -/
theorem origin_turn (hf : f.cause.isInfiniteLoop = true) (hr : Holds s r r.index)
    (hin : InStep s r) (hturn : turn (asking s h run) steps r = .broken more f) :
    (∃ m first, lookUp s r = .ok (some m, first) ∧ lacksHeadway s steps m.span.start = true ∧
      f = s.fault (.infiniteLoop steps) m.span.start) ∨
    ∃ c, Waits (fun R => turn (asking s h R) steps r) run c ∧ (run.at c).result = .error f := by
  have hlive : Live (turn (asking s h run) steps r) := by
    rw [hturn]
    intro f' hstuck
    cases hstuck.1
    exact not_endlessDelegation hf hstuck.2
  rcases (asks_turn hr steps).origin hlive f with hasked | ⟨run', hnever, heq⟩
  · exact .inr hasked
  · rw [hturn] at heq
    have hin' : InStep (asking s h run') r := ⟨hin.inRange, hin.opened⟩
    have hc' : compileLanguage name language = .ok (asking s h run').arena := hc
    rcases turn_broken heq with ⟨cause, hl, rfl⟩ | hlacks | ⟨m, first, hl, hstep⟩
    · obtain ⟨k, _, hmerge⟩ := Arena.next_error hl
      obtain ⟨pattern, message, rfl⟩ := Arena.RuleSet.mergedFrom_error hmerge
      cases hf
    · exact .inl hlacks
    · have hrule : InStep (asking s h run') (r.atRule first) := hin'.congr rfl rfl
      have hmeets := inStep_step hc' hrule fun id hk => begins_lt_size hc' hin' hl hk
      exact absurd (hmeets.2 f (by rw [hstep])) (not_stepFails hf hnever)

/-- **A run that lacks headway has been stopped itself, or a run that it waits for.** -/
theorem origin_scan (hf : f.cause.isInfiniteLoop = true) (fuel : Nat) :
    ∀ (steps : Nat) (notes : List HookNote) (r : Run),
    Reached (asking s h run) continuation steps r → fuel + steps = maxSteps s → 0 < fuel →
    (scan (asking s h run) fuel steps notes r).fault = some f →
    LosesHeadway (asking s h run) continuation f ∨
    ∃ c, Waits (fun R => scan (asking s h R) fuel steps notes r) run c ∧
      (run.at c).result = .error f := by
  induction fuel with
  | zero => exact fun _ _ _ _ _ hpos _ => absurd hpos (Nat.lt_irrefl 0)
  | succ fuel ih =>
    intro steps notes r hr hsteps _ hfault
    have hholds := holds_reached hr
    have hin : InStep s r := by
      have := inStep_between (s := asking s h run) hc (.inl ⟨_, hr⟩)
      exact ⟨this.inRange, this.opened⟩
    -- A call that the round waits for, or what comes after it, is one that the run waits for.
    have hstuck : ∀ (t : Turn) (R : Runner) (f : Fault), Stuck t f →
        Stuck (afterTurn (asking s h R) fuel (steps + 1) notes r t) f := by
      intro t R f hstuck
      cases t with
      | next more r' => cases hstuck.1
      | last more r' => cases hstuck.1
      | broken more e => exact hstuck
    have hasks := asks_turn (h := h) hholds (steps + 1)
    have hscan : ∀ R, scan (asking s h R) (fuel + 1) steps notes r =
        afterTurn (asking s h R) fuel (steps + 1) notes r (turn (asking s h R) (steps + 1) r) :=
      fun _ => rfl
    simp only [hscan] at hfault ⊢
    have hwaits : Live (turn (asking s h run) (steps + 1) r) → ∀ {c},
        Waits (fun R => afterTurn (asking s h R) fuel (steps + 1) notes r
          (turn (asking s h run) (steps + 1) r)) run c →
        Waits (fun R => afterTurn (asking s h R) fuel (steps + 1) notes r
          (turn (asking s h R) (steps + 1) r)) run c := fun hlive _ hw =>
      waits_andThen (g := fun t R => afterTurn (asking s h R) fuel (steps + 1) notes r t)
        hasks hlive hstuck hw
    cases hturn : turn (asking s h run) (steps + 1) r with
    | next more r' =>
      rw [hturn] at hfault hwaits
      have hmore : ¬ maxSteps s ≤ steps + 1 := fun hmax =>
        not_next_of_maxSteps (s := asking s h run) hmax hturn
      rcases ih _ _ r' (.next hr hturn) (by omega) (by omega) hfault with hloses | ⟨c, hw, hc'⟩
      · exact .inl hloses
      · exact .inr ⟨c, hwaits (fun f hf => by cases hf.1) hw, hc'⟩
    | last more r' =>
      rw [hturn] at hfault hwaits
      have hlive : Live (Turn.last more r') := fun f hf => by cases hf.1
      have hholds' : Holds s r' r'.index := by
        have hmeets := hasks.meets (hturn ▸ hlive)
        rw [hturn] at hmeets
        exact hmeets
      have hin' : InStep s r' := by
        have := inStep_between (s := asking s h run) hc (.inr ⟨_, _, _, hr, hturn⟩)
        exact ⟨this.inRange, this.opened⟩
      obtain ⟨c, hw, hc'⟩ := origin_complete hf hholds' hin' hfault
      exact .inr ⟨c, hwaits hlive hw, hc'⟩
    | broken more e =>
      rw [hturn] at hfault
      cases hfault
      rcases origin_turn hc hf hholds hin hturn with ⟨m, first, hl, hlacks, rfl⟩ | ⟨c, hw, hc'⟩
      · exact .inl (.stopped hr hl hlacks)
      · exact .inr ⟨c, fun f' hf' => hstuck _ _ _ (hw f' hf'), hc'⟩

end Rounds

/-! ## 3. Runs inside runs -/

/-- All languages of a highlighter are compiled ones. -/
def AllCompiled (h : Highlighter) : Prop :=
  ∀ name arena, h.language? name = some arena →
    ∃ (n : String) (language : Language), compileLanguage n language = .ok arena

/-- **The guard has ended a run**, with its fault. -/
def Stopped (h : Highlighter) (c : Call) (f : Fault) : Prop :=
  ∃ arena depth, h.language? c.name = some arena ∧
    LosesHeadway (h.sceneOf (h.delegateTo (h.runAt depth)) arena c.code c.ignoreIllegals)
      c.continuation f

theorem LeadsTo.behind {a : Call} (hc : h.Hands c a) (hr : h.LeadsTo a c') : h.LeadsTo c c' := by
  induction hr with
  | itself => exact .hands .itself hc
  | hands _ hh ih => exact .hands ih hh

/-- A run in a language that is not there. -/
theorem runAt_unknown (hl : h.language? c.name = none) (depth : Nat) :
    (h.runAt (depth + 1)).at c = .fail (unknown c.name) := by
  show h.runIn (h.runAt depth) c.name c.code c.ignoreIllegals c.continuation = _
  unfold runIn
  rw [hl]

/-- **A run that fails for want of headway leads to one that the guard has ended.** -/
theorem losesHeadway_of_error (hall : h.AllCompiled) (hf : f.cause.isInfiniteLoop = true)
    (depth : Nat) : ∀ {c : Call}, ((h.runAt depth).at c).result = .error f →
    ∃ c', h.LeadsTo c c' ∧ h.Stopped c' f := by
  induction depth with
  | zero =>
    intro c herror
    cases herror
    cases hf
  | succ depth ih =>
    intro c herror
    cases hl : h.language? c.name with
    | none =>
      have hunknown : (h.runAt (depth + 1)).at c = .fail (unknown c.name) := runAt_unknown hl depth
      rw [hunknown] at herror
      cases herror
      cases hf
    | some arena =>
      obtain ⟨n, language, hc⟩ := hall c.name arena hl
      have hrun : (h.runAt (depth + 1)).at c = h.runArena (h.delegateTo (h.runAt depth)) arena
          c.code c.ignoreIllegals c.continuation := runAt_succ hl depth _ _ _
      rw [hrun] at herror
      have hfault := (runArena_error herror).1
      let s := h.sceneOf (h.delegateTo (h.runAt depth)) arena c.code c.ignoreIllegals
      rcases origin_scan (s := s) (h := h) hc hf (maxSteps s) 0 []
        (initial arena c.continuation) .start rfl (Nat.succ_pos _) hfault with hloses | ⟨c', hw, hc'⟩
      · exact ⟨c, .itself, arena, depth, hl, hloses⟩
      · obtain ⟨c'', hleads, hstopped⟩ := ih hc'
        refine ⟨c'', LeadsTo.behind ⟨depth, fun f' hf' => ?_⟩ hleads, hstopped⟩
        have hstuck := hw f' hf'
        show Stuck (h.runIn _ c.name c.code c.ignoreIllegals c.continuation) f'
        unfold runIn
        rw [hl]
        exact stuck_attempt.mpr ⟨(conclude_error arena c.code _ _ hf').mpr hstuck.1, hf'⟩

end Highlight.Highlighter
