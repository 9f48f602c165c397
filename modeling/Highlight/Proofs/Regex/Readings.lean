import Highlight.Proofs.Regex.Local

/-!
# Readings that carry over

What a reader does with a pattern of its own it does as well where the pattern stands in a longer
one, in every setting alike. There a reader stands deeper, and may be too deep; but then it is so in
every setting. Only alternatives that reach the end of their text go on behind a bar that follows it.

* `Setting.progress` -- how far the reading has come, seen in a setting;
* `Everywhere` -- a reading that comes to the same in every setting;
* `EndsIn` -- the settings in which alternatives end where they end on their own;
* `Carries` -- that whatever a reader reads is read everywhere;
* `Carries.bind`, `Carries.step`, `carries_rest`, `carries_lift` -- readings in a row, and the single
  steps.
-/

namespace Highlight.Regex

/-! ## 1. Readings in every setting -/

theorem reading_bind_ok {α β : Type} {x : Reading α} {f : α → Reading β} {s : Progress}
    {r : β × Progress} (h : (x >>= f) s = .ok r) :
    ∃ a s', x s = .ok (a, s') ∧ f a s' = .ok r := by
  simp only [bind, StateT.bind, Except.bind] at h
  split at h
  · cases h
  · rename_i v hv
    exact ⟨v.1, v.2, hv, h⟩

theorem reading_bind_eq {α β : Type} {x : Reading α} {f : α → Reading β} {s t : Progress} {a : α}
    (h : x s = .ok (a, t)) : (x >>= f) s = f a t := by
  simp only [bind, StateT.bind, Except.bind, h]

theorem reading_bind_error {α β : Type} {x : Reading α} {f : α → Reading β} {s : Progress}
    {e : Fault} (h : x s = .error e) : (x >>= f) s = .error e := by
  simp only [bind, StateT.bind, Except.bind, h]

/-- How far the reading of a pattern has come, seen in a setting. -/
def Setting.progress (C : Setting) (s : Progress) : Progress :=
  ⟨C.text s.rest, s.groups + C.offset, s.names, s.opened.map (· + C.offset) ++ C.outer⟩

/-- In every setting, or in those `within` some, with steps to spare, `y` reads `b` from `s` up to
    `s'`; or `y` stands deeper, and is too deep in all of them. -/
def Everywhere {α : Type} (isDeeper : Bool) (y : Setting → Nat → Reading α) (s : Progress)
    (b : Setting → α) (s' : Progress) (within : Setting → Prop := fun _ => True) : Prop :=
  (∀ C, within C → ∀ spare, y C spare (C.progress s) = .ok (b C, C.progress s')) ∨
    (isDeeper = true ∧ ∀ C, within C → ∀ spare, y C spare (C.progress s) = .error .tooDeep)

namespace Everywhere

variable {α β : Type} {isDeeper : Bool} {y : Setting → Nat → Reading α} {s s' s'' : Progress}
  {b : Setting → α} {within within' : Setting → Prop}

theorem bind {g : Setting → Nat → α → Reading β} {c : Setting → β}
    (h : Everywhere isDeeper y s b s' within)
    (h' : Everywhere isDeeper (fun C spare => g C spare (b C)) s' c s'' within')
    (hw : ∀ C, within' C → within C) :
    Everywhere isDeeper (fun C spare => y C spare >>= g C spare) s c s'' within' := by
  rcases h with h | ⟨hd, h⟩
  · rcases h' with h' | ⟨hd', h'⟩
    · exact .inl fun C hC spare =>
        (reading_bind_eq (h C (hw C hC) spare)).trans (h' C hC spare)
    · exact .inr ⟨hd', fun C hC spare =>
        (reading_bind_eq (h C (hw C hC) spare)).trans (h' C hC spare)⟩
  · exact .inr ⟨hd, fun C hC spare => reading_bind_error (h C (hw C hC) spare)⟩

theorem mono (h : Everywhere isDeeper y s b s' within) (hw : ∀ C, within' C → within C) :
    Everywhere isDeeper y s b s' within' :=
  h.imp (fun h C hC => h C (hw C hC)) (And.imp_right fun h C hC => h C (hw C hC))

end Everywhere

/-- Whatever `x` reads from `s` on, `y` reads in every setting, `deeper` by so much; `R` says what
    both read has to do with each other, and with what remains. -/
def Carries {α β : Type} (s : Progress) (x : Reading α) (y : Nat → Setting → Nat → Reading β)
    (R : α → (Setting → β) → Progress → Prop)
    (within : Progress → Setting → Prop := fun _ _ => True) : Prop :=
  ∀ a s', x s = .ok (a, s') →
    ∃ b, R a b s' ∧ ∀ deeper, Everywhere (deeper != 0) (y deeper) s b s' (within s')

/-- Where alternatives end in `s'` that do so on their own: behind the text that is left they may not
    go on with what follows it. -/
def EndsIn (s' : Progress) (C : Setting) : Prop := s'.rest = [] → C.Closes

namespace Carries

variable {α β γ δ : Type} {s : Progress} {within within' : Progress → Setting → Prop}

/-- One reading after another; where the second one ends the first one does. -/
theorem bindWithin {x : Reading α} {y : Nat → Setting → Nat → Reading β}
    {R : α → (Setting → β) → Progress → Prop} {f : α → Reading γ}
    {g : Nat → Setting → Nat → β → Reading δ} {S : γ → (Setting → δ) → Progress → Prop}
    (h : Carries s x y R within)
    (h' : ∀ a b s', R a b s' →
      Carries s' (f a) (fun deeper C spare => g deeper C spare (b C)) S within')
    (hw : ∀ a b s' c s'', R a b s' → f a s' = .ok (c, s'') → ∀ C, within' s'' C → within s' C) :
    Carries s (x >>= f) (fun deeper C spare => y deeper C spare >>= g deeper C spare) S within' := by
  intro c s'' hc
  obtain ⟨a, s', hx, hf⟩ := reading_bind_ok hc
  obtain ⟨b, hR, hy⟩ := h a s' hx
  obtain ⟨d, hS, hg⟩ := h' a b s' hR c s'' hf
  exact ⟨d, hS, fun deeper => (hy deeper).bind (hg deeper) (hw a b s' c s'' hR hf)⟩

theorem bind {x : Reading α} {y : Nat → Setting → Nat → Reading β}
    {R : α → (Setting → β) → Progress → Prop} {f : α → Reading γ}
    {g : Nat → Setting → Nat → β → Reading δ} {S : γ → (Setting → δ) → Progress → Prop}
    (h : Carries s x y R)
    (h' : ∀ a b s', R a b s' →
      Carries s' (f a) (fun deeper C spare => g deeper C spare (b C)) S within) :
    Carries s (x >>= f) (fun deeper C spare => y deeper C spare >>= g deeper C spare) S within :=
  h.bindWithin h' fun _ _ _ _ _ _ _ _ _ => trivial

theorem pure {a : α} {b : Setting → β} {R : α → (Setting → β) → Progress → Prop} (h : R a b s) :
    Carries s (Pure.pure a) (fun _ C _ => Pure.pure (b C)) R := by
  intro a' s' ha
  cases ha
  exact ⟨b, h, fun _ => .inl fun _ _ _ => rfl⟩

theorem mono {x : Reading α} {y : Nat → Setting → Nat → Reading β}
    {R S : α → (Setting → β) → Progress → Prop} (h : Carries s x y R within)
    (h' : ∀ a b s', R a b s' → S a b s') : Carries s x y S within := by
  intro a s' ha
  obtain ⟨b, hR, hy⟩ := h a s' ha
  exact ⟨b, h' a b s' hR, hy⟩

theorem restrict {x : Reading α} {y : Nat → Setting → Nat → Reading β}
    {R : α → (Setting → β) → Progress → Prop} (h : Carries s x y R) : Carries s x y R within := by
  intro a s' ha
  obtain ⟨b, hR, hy⟩ := h a s' ha
  exact ⟨b, hR, fun deeper => (hy deeper).mono fun _ _ => trivial⟩

/-- What is read the same at any depth. -/
theorem of_ok {x : Reading α} {y : Nat → Setting → Nat → Reading β}
    {R : α → (Setting → β) → Progress → Prop}
    (h : ∀ a s', x s = .ok (a, s') → ∃ b, R a b s' ∧
      ∀ deeper C spare, y deeper C spare (C.progress s) = .ok (b C, C.progress s')) :
    Carries s x y R := by
  intro a s' ha
  obtain ⟨b, hR, hy⟩ := h a s' ha
  exact ⟨b, hR, fun deeper => .inl fun C _ => hy deeper C⟩

/-- The first steps on both sides can be taken apart. -/
theorem step {x z : Reading α} {y w : Nat → Setting → Nat → Reading β} {t : Progress}
    {R : α → (Setting → β) → Progress → Prop} (hx : x s = z t)
    (hy : ∀ deeper C spare,
      y deeper C spare (C.progress s) = w deeper C spare (C.progress t))
    (h : Carries t z w R within) : Carries s x y R within := by
  intro a s'' ha
  obtain ⟨b, hR, hb⟩ := h a s'' (hx ▸ ha)
  refine ⟨b, hR, fun deeper => ?_⟩
  rcases hb deeper with hb | ⟨hd, hb⟩
  · exact .inl fun C hC spare => (hy deeper C spare).trans (hb C hC spare)
  · exact .inr ⟨hd, fun C hC spare => (hy deeper C spare).trans (hb C hC spare)⟩

/-- What fails on its own. -/
theorem of_error {x : Reading α} {y : Nat → Setting → Nat → Reading β}
    {R : α → (Setting → β) → Progress → Prop} {e : Fault} (h : x s = .error e) :
    Carries s x y R within := by
  intro a s' ha
  rw [h] at ha
  cases ha

end Carries

/-! ## 2. Single steps -/

section Steps

variable {s : Progress}

theorem rest_eq : rest s = .ok (s.rest, s) := rfl

theorem get_eq : (get : Reading Progress) s = .ok (s, s) := rfl

theorem goOn_eq (cs : List Char) : goOn cs s = .ok ((), { s with rest := cs }) := rfl

theorem lift_eq {α : Type} {x : Except Fault α} {a : α} (h : x = .ok a) :
    (liftM x : Reading α) s = .ok (a, s) := by
  rw [h]
  rfl

theorem lift_ok {α : Type} {x : Except Fault α} {r : α × Progress}
    (h : (liftM x : Reading α) s = .ok r) : x = .ok r.1 ∧ r.2 = s := by
  cases x with
  | error e => cases h
  | ok a => cases h; exact ⟨rfl, rfl⟩

theorem carries_rest :
    Carries s rest (fun _ _ _ => rest)
      (fun a b s' => a = s.rest ∧ b = (fun C => C.text s.rest) ∧ s' = s) := by
  refine Carries.of_ok fun a s' h => ?_
  cases h
  exact ⟨_, ⟨rfl, rfl, rfl⟩, fun _ _ _ => rfl⟩

theorem carries_goOn (cs : List Char) :
    Carries s (goOn cs) (fun _ C _ => goOn (C.text cs))
      (fun _ _ s' => s' = { s with rest := cs }) := by
  refine Carries.of_ok fun a s' h => ?_
  cases h
  exact ⟨fun _ => (), rfl, fun _ _ _ => rfl⟩

/-- What a reader of texts answers, and what it answers in a setting. -/
theorem carries_lift {α β : Type} {x : Except Fault α} {y : Setting → Except Fault β}
    {R : α → (Setting → β) → Prop}
    (h : ∀ a, x = .ok a → ∃ b, R a b ∧ ∀ C, y C = .ok (b C)) :
    Carries s (liftM x) (fun _ C _ => liftM (y C)) (fun a b s' => R a b ∧ s' = s) := by
  refine Carries.of_ok fun a s' ha => ?_
  obtain ⟨hx, rfl⟩ := lift_ok ha
  obtain ⟨b, hR, hy⟩ := h a hx
  exact ⟨b, ⟨hR, rfl⟩, fun _ C _ => lift_eq (hy C)⟩

end Steps

end Highlight.Regex
