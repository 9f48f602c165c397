import Highlight.Scan.Attempt

/-!
# What steps come to

* `Attempt.Meets` -- that a step, if it succeeds, has a result of some kind, and that it fails, if
  it does, with a fault of some kind;
* `meets_bind` -- one step after another;
* `bind_congr` -- what comes after a step only has to be the same after its results.
-/

namespace Highlight.Scan.Attempt

variable {α β : Type} {x : Attempt α} {f : α → Attempt β} {P : α → Prop} {Q : β → Prop}
  {E : Fault → Prop}

/-- The result of the step is as `P` says, or its fault as `E` says. -/
def Meets (x : Attempt α) (P : α → Prop) (E : Fault → Prop) : Prop :=
  (∀ a, x.result = .ok a → P a) ∧ ∀ e, x.result = .error e → E e

@[simp] theorem result_pure (a : α) : (pure a : Attempt α).result = .ok a := rfl

@[simp] theorem result_fail (e : Fault) : (fail e : Attempt α).result = .error e := rfl

theorem result_bind_of_ok {a : α} (h : x.result = .ok a) : (x >>= f).result = (f a).result := by
  show (x.andThen f).result = _
  simp only [andThen, h]

theorem result_bind_of_error {e : Fault} (h : x.result = .error e) :
    (x >>= f).result = .error e := by
  show (x.andThen f).result = _
  simp only [andThen, h]

theorem result_bind_eq_ok {b : β} (h : (x >>= f).result = .ok b) :
    ∃ a, x.result = .ok a ∧ (f a).result = .ok b := by
  cases hx : x.result with
  | ok a => exact ⟨a, rfl, by rw [← result_bind_of_ok hx, h]⟩
  | error e => rw [result_bind_of_error hx] at h; cases h

/-- A step fails with the fault of its first part where nothing can fail after it. -/
theorem result_of_bind_pure_error {g : α → β} {e : Fault}
    (h : (x >>= fun a => pure (g a)).result = .error e) : x.result = .error e := by
  cases hx : x.result with
  | ok a =>
    rw [result_bind_of_ok hx] at h
    cases h
  | error e' =>
    rw [result_bind_of_error hx] at h
    cases h
    rfl

theorem notes_bind_of_ok {a : α} (h : x.result = .ok a) :
    (x >>= f).notes = x.notes ++ (f a).notes := by
  show (x.andThen f).notes = _
  simp only [andThen, h]

theorem notes_bind_of_error {e : Fault} (h : x.result = .error e) : (x >>= f).notes = x.notes := by
  show (x.andThen f).notes = _
  simp only [andThen, h]

/-- A step whose result does not matter. -/
theorem meets_any (x : Attempt α) : Meets x (fun _ => True) fun _ => True :=
  ⟨fun _ _ => trivial, fun _ _ => trivial⟩

/-- A step that succeeds has the result that it has. -/
theorem meets_result (x : Attempt α) : Meets x (fun a => x.result = .ok a) fun _ => True :=
  ⟨fun _ h => h, fun _ _ => trivial⟩

theorem meets_pure {a : α} (h : P a) : Meets (pure a) P E := by
  refine ⟨fun b hb => ?_, fun e he => ?_⟩
  · cases hb
    exact h
  · cases he

theorem meets_fail {e : Fault} (h : E e) : Meets (fail e : Attempt α) P E := by
  refine ⟨fun b hb => ?_, fun e' he => ?_⟩
  · cases hb
  · rw [result_fail] at he
    cases he
    exact h

/-- **One step after another meets what the second meets after every result of the first.** -/
theorem meets_bind (hx : Meets x P E) (hf : ∀ a, P a → Meets (f a) Q E) : Meets (x >>= f) Q E := by
  cases h : x.result with
  | ok a =>
    have hy := hf a (hx.1 a h)
    exact ⟨fun b hb => hy.1 b (by rw [← result_bind_of_ok h, hb]),
      fun e he => hy.2 e (by rw [← result_bind_of_ok h, he])⟩
  | error e =>
    refine ⟨fun b hb => ?_, fun e' he => ?_⟩
    · rw [result_bind_of_error h] at hb; cases hb
    · rw [result_bind_of_error h] at he
      cases he
      exact hx.2 e h

theorem meets_mono {P' : α → Prop} {E' : Fault → Prop} (hx : Meets x P E) (hP : ∀ a, P a → P' a)
    (hE : ∀ e, E e → E' e) : Meets x P' E' :=
  ⟨fun a h => hP a (hx.1 a h), fun e h => hE e (hx.2 e h)⟩

theorem meets_and {P' : α → Prop} (hx : Meets x P E) (hx' : Meets x P' E) :
    Meets x (fun a => P a ∧ P' a) E :=
  ⟨fun a h => ⟨hx.1 a h, hx'.1 a h⟩, hx.2⟩

/-! ## Steps after steps -/

theorem andThen_done (x : Attempt α) : x.andThen done = x := by
  obtain ⟨notes, result⟩ := x
  cases result <;> simp [andThen, done]

theorem done_andThen (a : α) (f : α → Attempt β) : (done a).andThen f = f a := by
  simp [andThen, done]

theorem andThen_assoc {γ : Type} (x : Attempt α) (f : α → Attempt β) (g : β → Attempt γ) :
    (x.andThen f).andThen g = x.andThen fun a => (f a).andThen g := by
  obtain ⟨notes, result⟩ := x
  cases result with
  | error e => rfl
  | ok a =>
    simp only [andThen]
    cases (f a).result <;> simp

instance : LawfulMonad Attempt := LawfulMonad.mk' Attempt andThen_done done_andThen andThen_assoc

/-- What comes after a step only has to be the same after the results that it can have. -/
theorem bind_congr {g : α → Attempt β} (hx : Meets x P E) (h : ∀ a, P a → f a = g a) :
    x >>= f = x >>= g := by
  show x.andThen f = x.andThen g
  unfold andThen
  split
  · rename_i a ha
    rw [h a (hx.1 a ha)]
  · rfl

end Highlight.Scan.Attempt
