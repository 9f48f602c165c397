import Highlight.Highlighting

/-!
# What is asked of other runs

A run in one language asks for runs in others. Each question and what comes after it depend on the
answers so far, and an answer that has no end leaves nothing after it. Questions are put to a runner,
so what asks is a function of a runner.

* `Call` -- a run that is asked for;
* `Stuck`, `Live` -- that something has no end, or that it has one;
* `Asks` -- a function that asks one question after the other, and finitely many;
* `asks_bind` -- one step after another;
* `Waits` -- that something could have no end if one run had none;
* `Extends` -- a runner that agrees with another wherever that one comes to an end;
* `Asks.stable`, `Asks.live_of_waits`, `Asks.waits_of_stuck`, `Asks.waits_extends` -- how runners
  that extend each other compare.
-/

namespace Highlight.Highlighter

open Highlight.Scan (Attempt Scanned Turn)

/-! ## 1. Calls -/

/-- A run that is asked for: a text in the language with a name, given whether what is forbidden is
    ignored and in which modes it begins. -/
structure Call where
  name : String
  code : String
  ignoreIllegals : Bool
  continuation : Option (List Nat)
  deriving DecidableEq

/-- The answer to a call. -/
def Runner.at (run : Runner) (c : Call) : Attempt Outcome :=
  run c.name c.code c.ignoreIllegals c.continuation

/-- The runner that fails one call with a fault, and is else as it was. -/
def Runner.failing (run : Runner) (c : Call) (f : Fault) : Runner :=
  fun name code ignoreIllegals continuation =>
    if (⟨name, code, ignoreIllegals, continuation⟩ : Call) = c then .fail f
    else run name code ignoreIllegals continuation

theorem failing_self (run : Runner) (c : Call) (f : Fault) : (run.failing c f).at c = .fail f :=
  if_pos rfl

theorem failing_of_ne (run : Runner) {c c' : Call} (f : Fault) (h : c' ≠ c) :
    (run.failing c f).at c' = run.at c' := if_neg h

/-! ## 2. No end -/

/-- What may be ended by a fault. -/
class Faulty (β : Type) where
  /-- The fault, where there is one. -/
  fault? : β → Option Fault

instance {α : Type} : Faulty (Attempt α) where
  fault? x := match x.result with
    | .error f => some f
    | .ok _ => none

instance : Faulty Turn where
  fault?
    | .broken _ f => some f
    | _ => none

instance : Faulty Scanned where
  fault? s := s.fault

variable {β γ : Type} [Faulty β] [Faulty γ] {x : β} {f f' : Fault}

/-- That something has no end, with the fault that says so. -/
def Stuck (x : β) (f : Fault) : Prop :=
  Faulty.fault? x = some f ∧ f.cause = .endlessDelegation

/-- That something has an end. -/
def Live (x : β) : Prop := ∀ f, ¬ Stuck x f

theorem Stuck.unique (h : Stuck x f) (h' : Stuck x f') : f = f' :=
  Option.some.inj (h.1.symm.trans h'.1)

theorem live_or_stuck (x : β) : Live x ∨ ∃ f, Stuck x f := by
  by_cases h : ∃ f, Stuck x f
  · exact .inr h
  · exact .inl (not_exists.mp h)

theorem stuck_attempt {α : Type} {x : Attempt α} :
    Stuck x f ↔ x.result = .error f ∧ f.cause = .endlessDelegation := by
  unfold Stuck
  refine and_congr_left fun _ => ?_
  obtain ⟨notes, result⟩ := x
  cases result with
  | ok a =>
    constructor
    · intro h
      cases h
    · intro h
      cases h
  | error e =>
    constructor
    · intro h
      cases h
      rfl
    · intro h
      cases h
      rfl

theorem live_of_ok {α : Type} {x : Attempt α} {a : α} (h : x.result = .ok a) : Live x := by
  intro f hf
  rw [stuck_attempt, h] at hf
  cases hf.1

theorem live_of_error {α : Type} {x : Attempt α} (h : x.result = .error f)
    (hf : f.cause ≠ .endlessDelegation) : Live x := by
  intro f' hf'
  obtain ⟨h1, h2⟩ := stuck_attempt.mp hf'
  rw [h] at h1
  cases h1
  exact hf h2

/-- A fault that says that something has no end, at a place of one's choice. -/
def noEnd (offset : Nat) : Fault := ⟨.endlessDelegation, ⟨offset, ""⟩⟩

/-- There are many such faults, so there is one that differs from any given. -/
theorem exists_other (f : Fault) : ∃ f', f'.cause = .endlessDelegation ∧ f' ≠ f := by
  refine ⟨noEnd (f.position.offset + 1), rfl, fun h => ?_⟩
  have hoffset : f.position.offset + 1 = f.position.offset := by
    conv => rhs; rw [← h]
    rfl
  omega

/-! ## 3. Asking -/

/-- **A function that asks one question after the other, and finitely many.** What it asks is as `Q`
    says, and what it comes to as `P` says where all answers have an end; an answer that has none
    leaves it without one. -/
inductive Asks (Q : Call → Prop) (P : β → Prop) : (Runner → β) → Prop
  | settled {b : β} : P b → Live b → Asks Q P fun _ => b
  | ask {c : Call} {k : Attempt Outcome → Runner → β} : Q c → (∀ x, Live x → Asks Q P (k x)) →
      (∀ x R f, Stuck x f → Stuck (k x R) f) → Asks Q P fun R => k (R.at c) R

variable {Q : Call → Prop} {P : β → Prop} {P' : γ → Prop} {F : Runner → β}

/-- **What comes after some questions can ask more.** -/
theorem Asks.andThen {g : β → Runner → γ} (hF : Asks Q P F)
    (hg : ∀ b, P b → Live b → Asks Q P' (g b)) (hstuck : ∀ b R f, Stuck b f → Stuck (g b R) f) :
    Asks Q P' fun R => g (F R) R := by
  induction hF with
  | settled hb hlive => exact hg _ hb hlive
  | ask hq _ hk ih =>
    exact .ask (k := fun x R => g _ R) hq ih fun x R f hf => hstuck _ R f (hk x R f hf)

/-- What questions come to may be changed, as long as what has an end keeps it. -/
theorem Asks.map {g : β → γ} (hF : Asks Q P F) (hP : ∀ b, P b → P' (g b))
    (hg : ∀ b f, Stuck (g b) f ↔ Stuck b f) : Asks Q P' fun R => g (F R) :=
  hF.andThen (g := fun b _ => g b)
    (fun b hb hlive => .settled (hP b hb) fun f hf => hlive f ((hg b f).mp hf))
    fun b _ f hf => (hg b f).mpr hf

/-- Fewer questions may be asked than are said to be. -/
theorem Asks.weaken {Q' : Call → Prop} (hF : Asks Q P F) (hQ : ∀ c, Q c → Q' c) :
    Asks Q' P F := by
  induction hF with
  | settled hb hlive => exact .settled hb hlive
  | ask hq _ hk ih => exact .ask (hQ _ hq) ih hk

section Attempts

variable {α α' : Type} {A : α → Prop} {A' : α' → Prop} {X : Runner → Attempt α}

/-- Steps that ask; their results are as `A` says. -/
abbrev AsksFor (Q : Call → Prop) (A : α → Prop) (X : Runner → Attempt α) : Prop :=
  Asks Q (fun x => ∀ a, x.result = .ok a → A a) X

theorem asks_pure {a : α} (h : A a) : AsksFor Q A fun _ => pure a :=
  .settled (fun _ hb => by cases hb; exact h) (live_of_ok rfl)

/-- A result that is the same for every runner. -/
theorem asks_same {v : Runner → α} (hv : ∀ R R', v R = v R') (h : ∀ R, A (v R)) :
    AsksFor Q A fun R => pure (v R) := by
  have heq : (fun R => (pure (v R) : Attempt α)) =
      fun _ => pure (v fun _ _ _ _ => .fail (noEnd 0)) := by
    funext R
    rw [hv R]
  rw [heq]
  exact asks_pure (h _)

/-- A failure that is the same for every runner, and not for want of an end. -/
theorem asks_fail {v : Runner → Fault} (hv : ∀ R R', v R = v R')
    (h : ∀ R, (v R).cause ≠ .endlessDelegation) :
    AsksFor Q A fun R => (.fail (v R) : Attempt α) := by
  have heq : (fun R => (.fail (v R) : Attempt α)) =
      fun _ => .fail (v fun _ _ _ _ => .fail (noEnd 0)) := by
    funext R
    rw [hv R]
  rw [heq]
  exact .settled (fun _ hb => by cases hb) (live_of_error rfl (h _))

/-- **One step after another.** -/
theorem asks_bind {g : α → Runner → Attempt α'} (hX : AsksFor Q A X)
    (hg : ∀ a, A a → AsksFor Q A' (g a)) : AsksFor Q A' fun R => X R >>= fun a => g a R := by
  refine Asks.andThen (g := fun x R => x >>= fun a => g a R) hX (fun x hx hlive => ?_)
    fun x R f hf => ?_
  · cases hresult : x.result with
    | ok a =>
      have heq : (fun R => x >>= fun a => g a R) =
          fun R => (⟨x.notes ++ (g a R).notes, (g a R).result⟩ : Attempt α') := by
        funext R
        show x.andThen (fun a => g a R) = _
        simp only [Attempt.andThen, hresult]
      rw [heq]
      refine (hg a (hx a hresult)).map (g := fun y => (⟨x.notes ++ y.notes, y.result⟩ : Attempt α'))
        (fun y hy => ?_) fun y f => stuck_attempt.trans stuck_attempt.symm
      exact hy
    | error e =>
      have heq : (fun R => x >>= fun a => g a R) = fun _ => (⟨x.notes, .error e⟩ : Attempt α') := by
        funext R
        show x.andThen (fun a => g a R) = _
        simp only [Attempt.andThen, hresult]
      rw [heq]
      refine .settled (fun a ha => by cases ha) (live_of_error rfl fun he => ?_)
      exact hlive e (stuck_attempt.mpr ⟨hresult, he⟩)
  · obtain ⟨hresult, hcause⟩ := stuck_attempt.mp hf
    refine stuck_attempt.mpr ⟨?_, hcause⟩
    show (x.andThen fun a => g a R).result = _
    simp only [Attempt.andThen, hresult]

/-- A single question. -/
theorem asks_at {c : Call} (h : Q c) : AsksFor Q (fun _ => True) fun R => R.at c :=
  .ask (k := fun x _ => x) h (fun _ hlive => .settled (fun _ _ => trivial) hlive)
    fun _ _ _ hf => hf

end Attempts

/-! ## 4. Waiting -/

/-- **It waits for a call**: if that call has no end, then neither has it. -/
def Waits (F : Runner → β) (run : Runner) (c : Call) : Prop :=
  ∀ f, f.cause = .endlessDelegation → Stuck (F (run.failing c f)) f

/-- A runner that answers as another one does wherever that one comes to an end. -/
def Extends (run run' : Runner) : Prop := ∀ c, Live (run.at c) → run'.at c = run.at c

variable {run run' : Runner} {c c' : Call}

/-- What waits for a call, and has asked for another one, goes on behind the answer. -/
theorem waits_next {k : Attempt Outcome → Runner → β} (hne : c ≠ c') :
    Waits (fun R => k (R.at c) R) run c' ↔ Waits (k (run.at c)) run c' := by
  unfold Waits
  refine forall_congr' fun f => forall_congr' fun _ => ?_
  show Stuck (k ((run.failing c' f).at c) _) f ↔ _
  rw [failing_of_ne run f hne]

/-- What waits for a call after another one has had an end to that one. -/
theorem live_of_waits_next {k : Attempt Outcome → Runner → β}
    (hk : ∀ x R f, Stuck x f → Stuck (k x R) f)
    (hw : Waits (k (run.at c)) run c') : Live (run.at c) := by
  intro f hf
  obtain ⟨f', hcause, hne⟩ := exists_other f
  exact hne ((hw f' hcause).unique (hk _ _ _ hf))

/-- What is asked first is waited for. -/
theorem waits_first {k : Attempt Outcome → Runner → β}
    (hk : ∀ x R f, Stuck x f → Stuck (k x R) f) (run : Runner) :
    Waits (fun R => k (R.at c) R) run c := by
  intro f hf
  show Stuck (k ((run.failing c f).at c) _) f
  rw [failing_self]
  exact hk _ _ _ ⟨rfl, hf⟩

theorem not_waits_settled {b : β} (hlive : Live b) : ¬ Waits (fun _ => b) run c :=
  fun hw => hlive (noEnd 0) (hw (noEnd 0) rfl)

/-- **What is waited for is a question that may be asked.** -/
theorem Asks.of_waits (hF : Asks Q P F) (hw : Waits F run c') : Q c' := by
  induction hF with
  | settled _ hlive => exact absurd hw (not_waits_settled hlive)
  | @ask c k hq _ hk ih =>
    by_cases hc : c = c'
    · exact hc ▸ hq
    · have hw' := (waits_next hc).mp hw
      exact ih _ (live_of_waits_next hk hw') hw'

/-- **What has no end waits for a call that has none.** -/
theorem Asks.waits_of_stuck (hF : Asks Q P F) (hs : Stuck (F run) f) :
    ∃ c, Stuck (run.at c) f ∧ Waits F run c := by
  induction hF with
  | settled _ hlive => exact absurd hs (hlive f)
  | @ask c k _ _ hk ih =>
    rcases live_or_stuck (run.at c) with hlive | ⟨f', hf'⟩
    · obtain ⟨c', hc', hw⟩ := ih _ hlive hs
      have hne : c ≠ c' := fun h => hlive f (h ▸ hc')
      exact ⟨c', hc', (waits_next hne).mpr hw⟩
    · cases hs.unique (hk _ _ _ hf')
      exact ⟨c, hf', waits_first hk run⟩

/-- **What has an end comes to the same with a runner that extends its own.** -/
theorem Asks.stable (hF : Asks Q P F) (hext : Extends run run') (hlive : Live (F run)) :
    F run' = F run := by
  induction hF with
  | settled _ _ => rfl
  | @ask c k _ _ hk ih =>
    have hc : Live (run.at c) := fun f hf => hlive f (hk _ _ _ hf)
    show k (run'.at c) run' = k (run.at c) run
    rw [hext c hc]
    exact ih _ hc hlive

/-- **What has an end has had one to every call that it waits for**, however far runners reach. -/
theorem Asks.live_of_waits (hF : Asks Q P F) (hext : Extends run run') (hlive : Live (F run))
    (hw : Waits F run' c') : Live (run.at c') := by
  induction hF with
  | settled _ hb => exact absurd hw (not_waits_settled hb)
  | @ask c k _ _ hk ih =>
    have hc : Live (run.at c) := fun f hf => hlive f (hk _ _ _ hf)
    by_cases heq : c = c'
    · exact heq ▸ hc
    · have hw' := (waits_next heq).mp hw
      rw [hext c hc] at hw'
      exact ih _ hc hlive hw'

/-- What is waited for is so with every runner that reaches further. -/
theorem Asks.waits_extends (hF : Asks Q P F) (hext : Extends run run') (hw : Waits F run c') :
    Waits F run' c' := by
  induction hF with
  | settled _ hlive => exact absurd hw (not_waits_settled hlive)
  | @ask c k _ _ hk ih =>
    by_cases heq : c = c'
    · exact heq ▸ waits_first hk run'
    · have hw' := (waits_next heq).mp hw
      have hc := live_of_waits_next hk hw'
      rw [waits_next heq, hext c hc]
      exact ih _ hc hw'

end Highlight.Highlighter
