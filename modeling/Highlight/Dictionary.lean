/-!
# Dictionaries

A dictionary keeps its entries in the order of their keys, one entry for a key. Every list of names
that is shown, and every run over named things, follows this order.

* `Dictionary` -- the entries, with the fact that their keys ascend;
* `Dictionary.insert`, `erase`, `filter` -- the changes; inserting under a known key replaces
  its value;
* `Dictionary.get?`, `keys`, `size` -- what is asked of it.
-/

namespace Highlight

/-! ## 1. Entries in order -/

section Entries

variable {κ α : Type} [Ord κ]

/-- That the keys of the entries ascend. -/
def Ascending (es : List (κ × α)) : Prop := es.Pairwise fun a b => compare a.1 b.1 = .lt

/-- The entries with one more, in its place; an entry with the same key gives way. -/
def insertEntry (k : κ) (v : α) : List (κ × α) → List (κ × α)
  | [] => [(k, v)]
  | e :: es =>
    match compare k e.1 with
    | .lt => (k, v) :: e :: es
    | .eq => (k, v) :: es
    | .gt => e :: insertEntry k v es

/-- The value under a key. -/
def valueOf? (k : κ) : List (κ × α) → Option α
  | [] => none
  | e :: es => if compare k e.1 == .eq then some e.2 else valueOf? k es

theorem mem_insertEntry {k : κ} {v : α} {es : List (κ × α)} {e : κ × α}
    (h : e ∈ insertEntry k v es) : e = (k, v) ∨ e ∈ es := by
  induction es with
  | nil => simpa [insertEntry] using h
  | cons d ds ih =>
    unfold insertEntry at h
    split at h
    · rcases List.mem_cons.mp h with rfl | h
      · exact .inl rfl
      · exact .inr h
    · rcases List.mem_cons.mp h with rfl | h
      · exact .inl rfl
      · exact .inr (List.mem_cons_of_mem _ h)
    · rcases List.mem_cons.mp h with rfl | h
      · exact .inr List.mem_cons_self
      · rcases ih h with rfl | h
        · exact .inl rfl
        · exact .inr (List.mem_cons_of_mem _ h)

/-- A value is kept under its key. -/
theorem mem_of_valueOf? [Std.LawfulEqOrd κ] {k : κ} {v : α} :
    ∀ {es : List (κ × α)}, valueOf? k es = some v → (k, v) ∈ es
  | [], h => by cases h
  | e :: es, h => by
      unfold valueOf? at h
      split at h
      · rename_i heq
        cases h
        have hk : k = e.1 := Std.compare_eq_iff_eq.mp (by simpa using heq)
        rw [hk]
        exact List.mem_cons_self
      · exact List.mem_cons_of_mem e (mem_of_valueOf? h)

/-- Under the key of an entry a value is found. -/
theorem isSome_valueOf? [Std.LawfulEqOrd κ] {k : κ} {v : α} :
    ∀ {es : List (κ × α)}, (k, v) ∈ es → (valueOf? k es).isSome = true
  | e :: es, h => by
      unfold valueOf?
      split
      · rfl
      · rename_i hne
        rcases List.mem_cons.mp h with rfl | h
        · exact absurd (beq_iff_eq.mpr (Std.compare_eq_iff_eq.mpr rfl)) hne
        · exact isSome_valueOf? h

/-- What has been inserted is found under its key, and nothing else changes. -/
theorem valueOf?_insertEntry [DecidableEq κ] [Std.LawfulEqOrd κ] (k : κ) (v : α) (k' : κ) :
    ∀ es : List (κ × α),
      valueOf? k' (insertEntry k v es) = if k' = k then some v else valueOf? k' es
  | [] => by
      simp [insertEntry, valueOf?]
  | e :: es => by
      unfold insertEntry
      split
      next _ => simp [valueOf?]
      next hk =>
        have hk : k = e.1 := Std.compare_eq_iff_eq.mp hk
        by_cases h : k' = k <;> simp [valueOf?, h, ← hk]
      next hk =>
        have hne : e.1 ≠ k := fun h => by
          rw [h, Std.compare_eq_iff_eq.mpr rfl] at hk
          cases hk
        rw [valueOf?, valueOf?, valueOf?_insertEntry k v k' es]
        by_cases h : k' = e.1
        · simp [h, hne]
        · simp [h]

/-- Inserting keeps the keys ascending. -/
theorem ascending_insertEntry [Std.TransOrd κ] (k : κ) (v : α) {es : List (κ × α)}
    (h : Ascending es) : Ascending (insertEntry k v es) := by
  induction es with
  | nil => simp [insertEntry, Ascending]
  | cons d ds ih =>
    have hd : ∀ e ∈ ds, compare d.1 e.1 = .lt := fun e he => List.rel_of_pairwise_cons h he
    have hs : Ascending ds := List.Pairwise.of_cons h
    unfold insertEntry
    split
    next hk =>
      refine List.pairwise_cons.mpr ⟨fun e he => ?_, h⟩
      rcases List.mem_cons.mp he with rfl | he
      · exact hk
      · exact Std.TransCmp.lt_trans hk (hd e he)
    next hk =>
      exact List.pairwise_cons.mpr
        ⟨fun e he => Std.TransCmp.lt_of_eq_of_lt hk (hd e he), hs⟩
    next hk =>
      refine List.pairwise_cons.mpr ⟨fun e he => ?_, ih hs⟩
      rcases mem_insertEntry he with rfl | he
      · exact Std.OrientedCmp.gt_iff_lt.mp hk
      · exact hd e he

/-- Leaving entries out keeps the keys ascending. -/
theorem ascending_filter {es : List (κ × α)} (p : κ × α → Bool) (h : Ascending es) :
    Ascending (es.filter p) := List.Pairwise.filter p h

end Entries

/-! ## 2. Dictionaries -/

/-- Values under keys, in the order of the keys. -/
structure Dictionary (κ : Type) [Ord κ] (α : Type) where
  entries : List (κ × α)
  ascending : Ascending entries

namespace Dictionary

variable {κ α : Type} [Ord κ]

/-- The dictionary without entries. -/
def empty : Dictionary κ α := ⟨[], List.Pairwise.nil⟩

instance : Inhabited (Dictionary κ α) := ⟨empty⟩

/-- The dictionary with `v` under `k`, instead of what was there before. -/
def insert [Std.TransOrd κ] (d : Dictionary κ α) (k : κ) (v : α) : Dictionary κ α :=
  ⟨insertEntry k v d.entries, ascending_insertEntry k v d.ascending⟩

/-- The dictionary with only the entries that pass a test. -/
def filter (d : Dictionary κ α) (p : κ × α → Bool) : Dictionary κ α :=
  ⟨d.entries.filter p, ascending_filter p d.ascending⟩

/-- The dictionary without the entry under `k`. -/
def erase (d : Dictionary κ α) (k : κ) : Dictionary κ α :=
  d.filter fun e => compare k e.1 != .eq

/-- The value under a key. -/
def get? (d : Dictionary κ α) (k : κ) : Option α := valueOf? k d.entries

theorem get?_insert [Std.TransOrd κ] [DecidableEq κ] [Std.LawfulEqOrd κ] (d : Dictionary κ α)
    (k : κ) (v : α) (k' : κ) : (d.insert k v).get? k' = if k' = k then some v else d.get? k' :=
  valueOf?_insertEntry k v k' d.entries

/-- Whether there is a value under a key. -/
def contains (d : Dictionary κ α) (k : κ) : Bool := (d.get? k).isSome

/-- The keys, in order. -/
def keys (d : Dictionary κ α) : List κ := d.entries.map (·.1)

/-- The number of entries. -/
def size (d : Dictionary κ α) : Nat := d.entries.length

/-- The dictionary of a list of entries; of two with the same key the later one counts. -/
def ofList [Std.TransOrd κ] (es : List (κ × α)) : Dictionary κ α :=
  es.foldl (fun d e => d.insert e.1 e.2) empty

/-- Every entry of the dictionary of a list is one of the list. -/
theorem mem_of_mem_ofList [Std.TransOrd κ] {es : List (κ × α)} {e : κ × α}
    (h : e ∈ (ofList es).entries) : e ∈ es := by
  have hfold : ∀ (es : List (κ × α)) (d : Dictionary κ α),
      e ∈ (es.foldl (fun d e => d.insert e.1 e.2) d).entries → e ∈ d.entries ∨ e ∈ es := by
    intro es
    induction es with
    | nil => exact fun d h => .inl h
    | cons e' es ih =>
      intro d h
      rcases ih _ h with h | h
      · rcases mem_insertEntry h with rfl | h
        · exact .inr List.mem_cons_self
        · exact .inl h
      · exact .inr (List.mem_cons_of_mem e' h)
  rcases hfold es empty h with h | h
  · cases h
  · exact h

end Dictionary

end Highlight
