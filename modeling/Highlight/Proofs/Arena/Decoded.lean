import Highlight.Grammar.Decoding
import Highlight.Proofs.Arena.Names

/-!
# Identities of decoded modes

The identity of a mode that is decoded is the way to the place that it is written at, so what is
written under one identity is one mode.

* `Placed` -- the modes inside a mode have the identities of their places;
* `placed_of_decodeMode` -- so have those of a mode that is decoded;
* `Way` -- the ways to the modes of a language;
* `wellNamed_of_decode` -- a decoded language is well named.
-/

namespace Highlight.Arena

open Highlight.Grammar Highlight.Json

variable {α β : Type} {l : Language} {id : Identity} {v v' : Mode} {m : Shared Mode}

/-! ## 1. Fields -/

/-- A field that may be unset is unset, or what its value decodes to. -/
theorem of_optional {decode : Json → Option α} {field : Option Json} {y : Option α}
    (h : Grammar.optional decode field = some y) : y = none ∨ ∃ v a, decode v = some a ∧ y = some a := by
  unfold Grammar.optional at h
  split at h
  · exact .inl (Option.some.inj h).symm
  · exact .inl (Option.some.inj h).symm
  · rename_i v _
    obtain ⟨a, ha, rfl⟩ := Option.map_eq_some_iff.mp h
    exact .inr ⟨v, a, ha, rfl⟩

/-- An item of a list that is decoded is decoded with its index. -/
theorem getElem?_decodeItems {decode : Nat → Json → Option α} {i : Nat} {x : α} :
    ∀ {n : Nat} {vs : List Json} {xs : List α}, decodeItems decode n vs = some xs →
      xs[i]? = some x → ∃ v, decode (n + i) v = some x := by
  induction i with
  | zero =>
    intro n vs xs h hx
    cases vs with
    | nil =>
      cases h
      cases hx
    | cons v vs =>
      simp only [decodeItems, bind, Option.bind_eq_some_iff, pure, Option.some.injEq] at h
      obtain ⟨a, ha, _, _, rfl⟩ := h
      cases hx
      exact ⟨v, ha⟩
  | succ i ih =>
    intro n vs xs h hx
    cases vs with
    | nil =>
      cases h
      cases hx
    | cons v vs =>
      simp only [decodeItems, bind, Option.bind_eq_some_iff, pure, Option.some.injEq] at h
      obtain ⟨_, _, xs', hxs', rfl⟩ := h
      obtain ⟨v', hv'⟩ := ih hxs' hx
      exact ⟨v', by rwa [Nat.add_right_comm] at hv'⟩

/-- The same where the list is a field. -/
theorem getElem?_of_optional_list {decode : Nat → Json → Option α} {field : Option Json}
    {y : Option (List α)} {i : Nat} {x : α} (h : Grammar.optional (decodeList decode) field = some y)
    (hx : (y.getD [])[i]? = some x) : ∃ v, decode i v = some x := by
  rcases of_optional h with rfl | ⟨v, xs, hxs, rfl⟩
  · cases hx
  · cases v with
    | array items => simpa using getElem?_decodeItems hxs hx
    | _ => cases hxs

/-! ## 2. Modes -/

/-- **The modes inside a mode have the identities of their places.** -/
inductive Placed : Identity → Mode → Prop
  | intro {id : Identity} {v : Mode} :
      (∀ i m, (v.contains.getD [])[i]? = some (.mode m) → m.id = ("contains", i) :: id) →
      (∀ i m, (v.contains.getD [])[i]? = some (.mode m) → Placed (("contains", i) :: id) m.value) →
      (∀ i u, (v.variants.getD [])[i]? = some u → Placed (("variants", i) :: id) u) →
      (∀ m, v.starts = some m → m.id = ("starts", 0) :: id) →
      (∀ m, v.starts = some m → Placed (("starts", 0) :: id) m.value) → Placed id v

theorem placed_of_decodeFields {decode : Identity → Json → Option Mode}
    (hdecode : ∀ id v m, decode id v = some m → Placed id m) {fields : List (String × Json)}
    (h : decodeFields decode id fields = some v) : Placed id v := by
  simp only [decodeFields, bind, Option.bind_eq_some_iff, pure, Option.some.injEq] at h
  obtain ⟨plain, _, contains, hcontains, variants, hvariants, starts, hstarts, rfl⟩ := h
  have hcontained : ∀ i m, (contains.getD [])[i]? = some (.mode m) →
      m.id = ("contains", i) :: id ∧ Placed (("contains", i) :: id) m.value := by
    intro i m hm
    obtain ⟨w, hw⟩ := getElem?_of_optional_list hcontains hm
    unfold decodeContained at hw
    split at hw
    · unfold containedName at hw
      split at hw <;> cases hw
    · split at hw
      · obtain ⟨u, hu, heq⟩ := Option.map_eq_some_iff.mp hw
        cases heq
        exact ⟨rfl, hdecode _ _ _ hu⟩
      · cases hw
  have hstarted : ∀ m, starts = some m →
      m.id = ("starts", 0) :: id ∧ Placed (("starts", 0) :: id) m.value := by
    intro m hm
    rcases of_optional hstarts with rfl | ⟨w, a, ha, rfl⟩
    · cases hm
    · cases hm
      obtain ⟨u, hu, rfl⟩ := Option.map_eq_some_iff.mp ha
      exact ⟨rfl, hdecode _ _ _ hu⟩
  refine .intro (fun i m hm => (hcontained i m hm).1) (fun i m hm => (hcontained i m hm).2)
    (fun i u hu => ?_) (fun m hm => (hstarted m hm).1) (fun m hm => (hstarted m hm).2)
  obtain ⟨w, hw⟩ := getElem?_of_optional_list hvariants hu
  exact hdecode _ _ _ hw

/-- **The modes inside a mode that is decoded have the identities of their places.** -/
theorem placed_of_decodeMode (depth : Nat) : ∀ id v m, decodeMode depth id v = some m →
    Placed id m := by
  induction depth with
  | zero =>
    intro id v m h
    cases h
  | succ depth ih =>
    intro id v m h
    simp only [decodeMode, bind, Option.bind_eq_some_iff] at h
    obtain ⟨fields, _, h⟩ := h
    exact placed_of_decodeFields ih h

/-! ## 3. Languages -/

/-- **The ways to the modes of a language.** -/
inductive Way (l : Language) : Identity → Mode → Prop
  | root : Way l [] l.mode
  | named {name : String} {m : Shared Mode} : (name, m) ∈ l.repository.entries → Way l m.id m.value
  | contained {id : Identity} {v : Mode} {i : Nat} {m : Shared Mode} : Way l id v →
      (v.contains.getD [])[i]? = some (.mode m) → Way l (("contains", i) :: id) m.value
  | variant {id : Identity} {v u : Mode} {i : Nat} : Way l id v →
      (v.variants.getD [])[i]? = some u → Way l (("variants", i) :: id) u
  | started {id : Identity} {v : Mode} {m : Shared Mode} : Way l id v → v.starts = some m →
      Way l (("starts", 0) :: id) m.value

/-- **The identities of a language are the ways to its modes**: from the root or, with an index of its
    own, from each mode of the repository. -/
structure PlacedIn (l : Language) : Prop where
  root : Placed [] l.mode
  named : ∀ name m, (name, m) ∈ l.repository.entries →
    (∃ i, m.id = [("repository", i)]) ∧ Placed m.id m.value
  unique : ∀ name name' m m', (name, m) ∈ l.repository.entries →
    (name', m') ∈ l.repository.entries → m.id = m'.id → m.value = m'.value

/-- A way leads to one mode. -/
theorem way_unique (hl : PlacedIn l) (h : Way l id v) (h' : Way l id v') : v = v' := by
  induction h generalizing v' with
  | root =>
    generalize hid : ([] : Identity) = id at h'
    cases h' with
    | root => rfl
    | named hm =>
      obtain ⟨⟨i, hi⟩, _⟩ := hl.named _ _ hm
      rw [hi] at hid
      cases hid
    | _ => cases hid
  | @named name m hm =>
    obtain ⟨⟨i, hi⟩, _⟩ := hl.named _ _ hm
    generalize hid : m.id = id at h'
    cases h' with
    | named hm' => exact hl.unique _ _ _ _ hm hm' hid
    | _ => simp [hi] at hid
  | @contained id v i m hv hm ih =>
    generalize hid : ("contains", i) :: id = id' at h'
    cases h' with
    | named hm' =>
      obtain ⟨⟨j, hj⟩, _⟩ := hl.named _ _ hm'
      simp [hj] at hid
    | contained hv' hm' =>
      cases hid
      cases ih hv'
      cases hm.symm.trans hm'
      rfl
    | _ => simp at hid
  | @variant id v u i hv hu ih =>
    generalize hid : ("variants", i) :: id = id' at h'
    cases h' with
    | named hm' =>
      obtain ⟨⟨j, hj⟩, _⟩ := hl.named _ _ hm'
      simp [hj] at hid
    | variant hv' hu' =>
      cases hid
      cases ih hv'
      exact Option.some.inj (hu.symm.trans hu')
    | _ => simp at hid
  | @started id v m hv hm ih =>
    generalize hid : ("starts", 0) :: id = id' at h'
    cases h' with
    | named hm' =>
      obtain ⟨⟨j, hj⟩, _⟩ := hl.named _ _ hm'
      simp [hj] at hid
    | started hv' hm' =>
      cases hid
      cases ih hv'
      cases hm.symm.trans hm'
      rfl
    | _ => simp at hid

/-- There is a way to every mode that a language is written with. -/
theorem exists_way (hl : PlacedIn l) (h : Within l v) : ∃ id, Way l id v ∧ Placed id v := by
  induction h with
  | root => exact ⟨[], .root, hl.root⟩
  | named hm => exact ⟨_, .named hm, (hl.named _ _ hm).2⟩
  | contained _ hm ih =>
    obtain ⟨id, hway, _, hplaced, _, _, _⟩ := ih
    obtain ⟨i, hi⟩ := List.mem_iff_getElem?.mp hm
    exact ⟨_, hway.contained hi, hplaced i _ hi⟩
  | variant _ hu ih =>
    obtain ⟨id, hway, _, _, hplaced, _, _⟩ := ih
    obtain ⟨i, hi⟩ := List.mem_iff_getElem?.mp hu
    exact ⟨_, hway.variant hi, hplaced i _ hi⟩
  | started _ hm ih =>
    obtain ⟨id, hway, _, _, _, _, hplaced⟩ := ih
    exact ⟨_, hway.started hm, hplaced _ hm⟩

/-- The identity of a written mode is the way to it, which no identity of the compiler's own is. -/
theorem way_of_written (hl : PlacedIn l) (h : Written l m) : Way l m.id m.value ∧
    ∀ word i rest, m.id = (word, i) :: rest → word ∉ ownWords := by
  cases h with
  | named hm =>
    refine ⟨.named hm, fun word i rest hid => ?_⟩
    obtain ⟨⟨j, hj⟩, _⟩ := hl.named _ _ hm
    rw [hj] at hid
    cases hid
    decide
  | contained hv hm =>
    obtain ⟨id, hway, hid, _⟩ := exists_way hl hv
    obtain ⟨i, hi⟩ := List.mem_iff_getElem?.mp hm
    have hplace := hid i m hi
    refine ⟨hplace ▸ hway.contained hi, fun word j rest heq => ?_⟩
    cases hplace.symm.trans heq
    decide
  | started hv hm =>
    obtain ⟨id, hway, _, _, _, hid, _⟩ := exists_way hl hv
    have hplace := hid m hm
    refine ⟨hplace ▸ hway.started hm, fun word j rest heq => ?_⟩
    cases hplace.symm.trans heq
    decide

theorem PlacedIn.wellNamed (hl : PlacedIn l) : WellNamed l where
  unique := fun _ _ hm hm' hid =>
    way_unique hl (way_of_written hl hm).1 (hid ▸ (way_of_written hl hm').1)
  unlike := fun _ word i rest hm hid => (way_of_written hl hm).2 word i rest hid

/-- The modes of a repository are decoded each at a place of its own. -/
theorem named_of_decodeRepository {v : Json} {repository : Dictionary String (Shared Mode)}
    (h : decodeRepository v = some repository) :
    (∀ name m, (name, m) ∈ repository.entries →
      (∃ i, m.id = [("repository", i)]) ∧ Placed m.id m.value) ∧
    ∀ name name' m m', (name, m) ∈ repository.entries → (name', m') ∈ repository.entries →
      m.id = m'.id → m.value = m'.value := by
  unfold decodeRepository at h
  split at h
  · rename_i fields
    simp only [bind, Option.bind_eq_some_iff, pure, Option.some.injEq] at h
    obtain ⟨modes, hmodes, rfl⟩ := h
    have hplace : ∀ name m, (name, m) ∈ (Dictionary.ofList ((fields.map (·.1)).zip modes)).entries →
        ∃ i, modes[i]? = some m ∧ m.id = [("repository", i)] ∧ Placed m.id m.value := by
      intro name m hm
      have hmem := (List.of_mem_zip (Dictionary.mem_of_mem_ofList hm)).2
      obtain ⟨i, hi⟩ := List.mem_iff_getElem?.mp hmem
      obtain ⟨w, hw⟩ := getElem?_decodeItems hmodes hi
      obtain ⟨u, hu, rfl⟩ := Option.map_eq_some_iff.mp hw
      rw [Nat.zero_add] at hu hi ⊢
      exact ⟨i, hi, rfl, placed_of_decodeMode _ _ _ _ hu⟩
    refine ⟨fun name m hm => ?_, fun name name' m m' hm hm' hid => ?_⟩
    · obtain ⟨i, _, hid, hplaced⟩ := hplace name m hm
      exact ⟨⟨i, hid⟩, hplaced⟩
    · obtain ⟨i, hi, hid1, _⟩ := hplace name m hm
      obtain ⟨i', hi', hid2, _⟩ := hplace name' m' hm'
      rw [hid1, hid2] at hid
      cases hid
      cases hi.symm.trans hi'
      rfl
  · cases h

theorem placedIn_of_decode {v : Json} (h : Language.decode v = some l) : PlacedIn l := by
  unfold Language.decode at h
  split at h
  · rename_i fields
    simp only [bind, pure] at h
    split at h
    · simp only [Option.bind_eq_some_iff, Option.some.injEq] at h
      obtain ⟨_, _, _, _, _, _, _, _, _, _, _, _, repository, hrepository, mode, hmode, rfl⟩ := h
      have hroot : Placed [] mode := placed_of_decodeFields (placed_of_decodeMode _) hmode
      cases hfield : field? "repository" fields with
      | none =>
        rw [hfield] at hrepository
        cases hrepository
        exact ⟨hroot, fun _ _ hm => (by cases hm), fun _ _ _ _ hm => (by cases hm)⟩
      | some w =>
        rw [hfield] at hrepository
        obtain ⟨hnamed, hunique⟩ := named_of_decodeRepository hrepository
        exact ⟨hroot, hnamed, hunique⟩
    · cases h
  · cases h

/-- **A decoded language is well named.** -/
theorem wellNamed_of_decode {v : Json} (h : Language.decode v = some l) : WellNamed l :=
  (placedIn_of_decode h).wellNamed

end Highlight.Arena
