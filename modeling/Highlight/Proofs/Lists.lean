import Mathlib.Data.List.Forall2

/-!
# Lists handled item by item

* `exists_of_bind`, `exists_of_isOk`, `exists_of_any`, `rel_of_mapM` -- what comes of two steps, of
  one, of one that passes a test, and of one that may be missing, where they succeed;
* `exists_of_not_isOk` -- what comes of one that fails;
* `isSome_of_rel`, `rel_map`, `rel_mono`, `rel_orElse` -- two values that are related, or both missing;
* `forall₂_of_mapM`, `exists_of_mem_mapM` -- what comes of a list where every step succeeds;
* `forall₂_of_sources`, `forall₂_set`, `exists_of_forall₂_append` -- two lists that are related item
  by item;
* `any_of_map_eq`, `all_of_map_eq` -- lists of which every item answers the same;
* `map_add_congr` -- numbers that are moved.
-/

namespace Highlight

variable {α β : Type}

/-- Where one step after another succeeds, both do. -/
theorem exists_of_bind {ε : Type} {x : Except ε α} {f : α → Except ε β} {b : β}
    (h : x >>= f = .ok b) : ∃ a, x = .ok a ∧ f a = .ok b := by
  cases x with
  | error e => cases h
  | ok a => exact ⟨a, rfl, h⟩

theorem ok_of_mapError {ε ε' : Type} {f : ε → ε'} {x : Except ε α} {a : α}
    (h : x.mapError f = .ok a) : x = .ok a := by
  cases x with
  | error e => cases h
  | ok b => cases h; rfl

/-- What succeeds comes to something. -/
theorem exists_of_isOk {ε : Type} {x : Except ε α} (h : x.isOk = true) : ∃ a, x = .ok a := by
  cases x with
  | error e => cases h
  | ok a => exact ⟨a, rfl⟩

/-- What fails comes to an error. -/
theorem exists_of_not_isOk {ε : Type} {x : Except ε α} (h : x.isOk = false) :
    ∃ e, x = .error e := by
  cases x with
  | error e => exact ⟨e, rfl⟩
  | ok a => cases h

/-- What passes a test is there. -/
theorem exists_of_any {ε : Type} {x : Except ε α} {test : α → Bool}
    (h : x.toOption.any test = true) : ∃ a, x = .ok a ∧ test a = true := by
  cases x with
  | error e => cases h
  | ok a => exact ⟨a, rfl, h⟩

/-- What comes of something that may be missing is missing where that is. -/
theorem rel_of_mapM {ε : Type} {f : α → Except ε β} {x : Option α} {y : Option β}
    (h : x.mapM f = .ok y) : Option.Rel (fun a b => f a = .ok b) x y := by
  cases x with
  | none =>
    cases h
    exact .none
  | some a =>
    obtain ⟨b, hb, hy⟩ := exists_of_bind (x := f a) (f := fun b => .ok (some b)) h
    cases hy
    exact .some hb

section Options

variable {α' β' : Type} {R : α → β → Prop} {x : Option α} {y : Option β}

theorem isSome_of_rel (h : Option.Rel R x y) : y.isSome = x.isSome := by
  cases h <;> rfl

theorem rel_map {S : α' → β' → Prop} {f : α → α'} {g : β → β'} (h : Option.Rel R x y)
    (hfg : ∀ a b, R a b → S (f a) (g b)) : Option.Rel S (x.map f) (y.map g) := by
  cases h with
  | none => exact .none
  | some hab => exact .some (hfg _ _ hab)

theorem rel_mono {S : α → β → Prop} (h : Option.Rel R x y) (hRS : ∀ a b, R a b → S a b) :
    Option.Rel S x y := by
  cases h with
  | none => exact .none
  | some hab => exact .some (hRS _ _ hab)

theorem rel_orElse {x' : Option α} {y' : Option β} (h : Option.Rel R x y)
    (h' : Option.Rel R x' y') : Option.Rel R (x <|> x') (y <|> y') := by
  cases h with
  | none => exact h'
  | some hab => exact .some hab

end Options

/-- What comes of a list step by step comes of its items, one by one. -/
theorem forall₂_of_mapM {ε : Type} {f : α → Except ε β} : ∀ {xs : List α} {ys : List β},
    xs.mapM f = .ok ys → List.Forall₂ (fun x y => f x = .ok y) xs ys
  | [], _, h => by
      cases h
      exact .nil
  | x :: xs, ys, h => by
      simp only [List.mapM_cons, bind, Except.bind, pure, Except.pure] at h
      split at h
      · cases h
      · rename_i y hy
        split at h
        · cases h
        · rename_i ys' hys
          cases h
          exact .cons hy (forall₂_of_mapM hys)

theorem mapM_of_forall₂ {ε : Type} {f : α → Except ε β} {xs : List α} {ys : List β}
    (h : List.Forall₂ (fun x y => f x = .ok y) xs ys) : xs.mapM f = .ok ys := by
  induction h with
  | nil => rfl
  | cons hx _ ih =>
    simp only [List.mapM_cons, hx, ih, bind, Except.bind]
    rfl

/-- Lists whose items come of items that are related, one by one. -/
theorem forall₂_of_sources {γ δ : Type} {R : α → β → Prop} {S : α → γ → Prop} {T : β → δ → Prop}
    {Q : γ → δ → Prop} {xs : List α} {ys : List β} {zs : List γ} {ws : List δ}
    (h : List.Forall₂ R xs ys) (hzs : List.Forall₂ S xs zs) (hws : List.Forall₂ T ys ws)
    (hQ : ∀ x y z w, R x y → S x z → T y w → Q z w) : List.Forall₂ Q zs ws := by
  induction h generalizing zs ws with
  | nil =>
    cases hzs
    cases hws
    exact .nil
  | cons hxy _ ih =>
    cases hzs with
    | cons hxz hzs =>
      cases hws with
      | cons hyw hws => exact .cons (hQ _ _ _ _ hxy hxz hyw) (ih hzs hws)

theorem forall₂_set {R : α → β → Prop} {xs : List α} {ys : List β} (h : List.Forall₂ R xs ys) {a : α}
    {b : β} (hab : R a b) (i : Nat) : List.Forall₂ R (xs.set i a) (ys.set i b) := by
  induction h generalizing i with
  | nil => exact .nil
  | cons hx hxs ih =>
    cases i with
    | zero => exact .cons hab hxs
    | succ i => exact .cons hx (ih i)

/-- What comes of two lists, one behind the other, falls into what comes of each. -/
theorem exists_of_forall₂_append {R : α → β → Prop} {xs xs' : List α} {ys : List β}
    (h : List.Forall₂ R (xs ++ xs') ys) :
    ∃ us vs, ys = us ++ vs ∧ List.Forall₂ R xs us ∧ List.Forall₂ R xs' vs :=
  ⟨_, _, (List.take_append_drop _ ys).symm, (List.forall₂_take_append _ _ _ h.flip).flip,
    (List.forall₂_drop_append _ _ _ h.flip).flip⟩

theorem exists_of_mem_forall₂ {R : α → β → Prop} {xs : List α} {ys : List β} {y : β}
    (h : List.Forall₂ R xs ys) (hy : y ∈ ys) : ∃ x ∈ xs, R x y := by
  induction h with
  | nil => cases hy
  | @cons x _ xs _ hR _ ih =>
    rcases List.mem_cons.mp hy with rfl | hy
    · exact ⟨x, List.mem_cons_self, hR⟩
    · obtain ⟨x', hx', hR'⟩ := ih hy
      exact ⟨x', List.mem_cons_of_mem x hx', hR'⟩

/-- What comes of a list step by step comes of its items. -/
theorem exists_of_mem_mapM {ε : Type} {f : α → Except ε β} {xs : List α} {ys : List β} {y : β}
    (h : xs.mapM f = .ok ys) (hy : y ∈ ys) : ∃ x ∈ xs, f x = .ok y :=
  exists_of_mem_forall₂ (R := fun x y => f x = .ok y) (forall₂_of_mapM h) hy

section Answers

variable {xs : List α} {ys : List β} {p : α → Bool} {q : β → Bool}

theorem any_of_map_eq (h : xs.map p = ys.map q) : xs.any p = ys.any q := by
  simpa only [List.any_map, Function.id_comp] using congrArg (·.any id) h

theorem all_of_map_eq (h : xs.map p = ys.map q) : xs.all p = ys.all q := by
  simpa only [List.all_map, Function.id_comp] using congrArg (·.all id) h

end Answers

theorem map_add_congr {offset : Nat} {f f' : Nat → β} {ns : List Nat}
    (h : ∀ n ∈ ns, f' (n + offset) = f n) : (ns.map (· + offset)).map f' = ns.map f := by
  rw [List.map_map]
  exact List.map_congr_left h

end Highlight
