import Mathlib.Data.List.Sort
import Highlight.Dictionary

/-!
# Dictionaries that are the same, or related

* `rel_valueOf?`, `forall₂_insertEntry`, `filter_insertEntry` -- entries that are related, key by key,
  and those that are under other keys;
* `Dictionary.get?_eq_some_iff` -- what is found under a key is what is kept under it;
* `Dictionary.ext_get?` -- a dictionary is known from what is found in it;
* `Dictionary.nodup_keys`, `Dictionary.keys_congr`, `Dictionary.get?_erase` -- keys, and what is left
  without one;
* `Dictionary.insert_comm`, `Dictionary.insert_of_get?` -- insertions under different keys, and of
  what is there.
-/

namespace Highlight

section Related

variable {κ α β : Type} [Ord κ] {R : κ × α → κ × β → Prop} {es : List (κ × α)} {es' : List (κ × β)}

/-- What is found under a key in related entries is related. -/
theorem rel_valueOf? [Std.LawfulEqOrd κ] (hR : ∀ e e', R e e' → e'.1 = e.1)
    (hes : List.Forall₂ R es es') (k : κ) :
    Option.Rel (fun v v' => R (k, v) (k, v')) (valueOf? k es) (valueOf? k es') := by
  induction hes with
  | nil => exact .none
  | @cons e e' es es' he _ ih =>
    obtain ⟨key, v⟩ := e
    obtain ⟨key', v'⟩ := e'
    obtain rfl : key' = key := hR _ _ he
    unfold valueOf?
    split
    · rename_i hkey
      rw [Std.compare_eq_iff_eq.mp (beq_iff_eq.mp hkey)]
      exact .some he
    · exact ih

/-- Entries stay related when related values are put among them. -/
theorem forall₂_insertEntry (hR : ∀ e e', R e e' → e'.1 = e.1) (hes : List.Forall₂ R es es') {k : κ}
    {v : α} {v' : β} (hv : R (k, v) (k, v')) :
    List.Forall₂ R (insertEntry k v es) (insertEntry k v' es') := by
  induction hes with
  | nil => exact .cons hv .nil
  | @cons e e' es es' he hes ih =>
    obtain ⟨key, w⟩ := e
    obtain ⟨key', w'⟩ := e'
    obtain rfl : key' = key := hR _ _ he
    unfold insertEntry
    dsimp only
    cases compare k key' with
    | lt => exact .cons hv (.cons he hes)
    | eq => exact .cons hv hes
    | gt => exact .cons he ih

end Related

variable {κ α : Type} [Ord κ] [Std.TransOrd κ] [Std.LawfulEqOrd κ]

/-- What is kept under a key is found there. -/
theorem valueOf?_of_mem {k : κ} {v : α} :
    ∀ {es : List (κ × α)}, Ascending es → (k, v) ∈ es → valueOf? k es = some v
  | e :: es, hasc, hmem => by
      obtain ⟨hfirst, hasc⟩ := List.pairwise_cons.mp hasc
      unfold valueOf?
      rcases List.mem_cons.mp hmem with rfl | hmem
      · rw [if_pos (beq_iff_eq.mpr Std.ReflOrd.compare_self)]
      · -- What comes later has another key.
        have hne : compare k e.1 ≠ .eq := by
          rw [Std.OrientedOrd.eq_swap, hfirst (k, v) hmem]
          decide
        rw [if_neg (by simpa using hne), valueOf?_of_mem hasc hmem]

/-- Lists whose keys ascend are the same if they have the same members. -/
theorem eq_of_ascending {β : Type} (key : β → κ) {l l' : List β}
    (hl : l.Pairwise fun a b => compare (key a) (key b) = .lt)
    (hl' : l'.Pairwise fun a b => compare (key a) (key b) = .lt) (hmem : ∀ b, b ∈ l ↔ b ∈ l') :
    l = l' := by
  have hirrefl : Std.Irrefl fun a b : β => compare (key a) (key b) = .lt :=
    ⟨fun a hlt => by
      rw [Std.ReflOrd.compare_self] at hlt
      cases hlt⟩
  have hantisymm : Std.Antisymm fun a b : β => compare (key a) (key b) = .lt :=
    ⟨fun a b hlt hgt => by
      rw [Std.OrientedOrd.eq_swap, hgt] at hlt
      cases hlt⟩
  exact hl.eq_of_mem_iff hl' hmem

omit [Std.TransOrd κ] in
/-- What is put under a key does not count among the entries under other keys. -/
theorem filter_insertEntry [BEq κ] [LawfulBEq κ] (k : κ) (v : α) (es : List (κ × α)) :
    (insertEntry k v es).filter (·.1 != k) = es.filter (·.1 != k) := by
  induction es with
  | nil => simp [insertEntry]
  | cons e es ih =>
    unfold insertEntry
    split
    next _ => simp
    next heq =>
      have hkey : k = e.1 := Std.compare_eq_iff_eq.mp heq
      simp [← hkey]
    next _ => rw [List.filter_cons, List.filter_cons, ih]

namespace Dictionary

variable {d d' : Dictionary κ α} {k k' : κ} {v v' : α}

theorem get?_eq_some_iff : d.get? k = some v ↔ (k, v) ∈ d.entries :=
  ⟨mem_of_valueOf?, valueOf?_of_mem d.ascending⟩

/-- **A dictionary is known from what is found in it.** -/
theorem ext_get? (hget : ∀ k, d.get? k = d'.get? k) : d = d' := by
  have hentries : d.entries = d'.entries :=
    eq_of_ascending Prod.fst d.ascending d'.ascending fun ⟨k, v⟩ => by
      rw [← get?_eq_some_iff, ← get?_eq_some_iff, hget k]
  cases d
  cases d'
  cases hentries
  rfl

theorem mem_keys_iff : k ∈ d.keys ↔ (d.get? k).isSome = true := by
  rw [Option.isSome_iff_exists]
  constructor
  · intro hk
    obtain ⟨⟨_, v⟩, hmem, rfl⟩ := List.mem_map.mp hk
    exact ⟨v, get?_eq_some_iff.mpr hmem⟩
  · rintro ⟨v, hv⟩
    exact List.mem_map.mpr ⟨(k, v), get?_eq_some_iff.mp hv, rfl⟩

omit [Std.TransOrd κ] in
/-- Every key is there once. -/
theorem nodup_keys (d : Dictionary κ α) : d.keys.Nodup := by
  unfold Dictionary.keys
  rw [List.Nodup, List.pairwise_map]
  refine List.Pairwise.imp (fun {e e'} hlt heq => ?_) d.ascending
  rw [heq, Std.ReflOrd.compare_self] at hlt
  cases hlt

/-- Dictionaries in which something is found under the same keys have the same keys. -/
theorem keys_congr (hget : ∀ k, (d.get? k).isSome = (d'.get? k).isSome) : d.keys = d'.keys :=
  eq_of_ascending id (List.pairwise_map.mpr d.ascending) (List.pairwise_map.mpr d'.ascending)
    fun k => by rw [mem_keys_iff, mem_keys_iff, hget k]

/-- Without the entry under a key, nothing else changes. -/
theorem get?_erase [DecidableEq κ] (d : Dictionary κ α) (k k' : κ) :
    (d.erase k).get? k' = if k' = k then none else d.get? k' := by
  refine Option.ext fun v => ?_
  rw [get?_eq_some_iff]
  show (k', v) ∈ d.entries.filter _ ↔ _
  rw [List.mem_filter, ← get?_eq_some_iff]
  by_cases hk : k' = k
  · simp [hk]
  · simp [hk, Ne.symm hk]

variable [DecidableEq κ]

/-- Insertions under different keys may be made in either order. -/
theorem insert_comm (hne : k ≠ k') : (d.insert k v).insert k' v' = (d.insert k' v').insert k v := by
  refine ext_get? fun x => ?_
  simp only [get?_insert]
  by_cases hx : x = k
  · rw [if_pos hx, if_neg (hx ▸ hne), if_pos hx]
  · rw [if_neg hx, if_neg hx]

/-- Inserting what is there changes nothing. -/
theorem insert_of_get? (hk : d.get? k = some v) : d.insert k v = d := by
  refine ext_get? fun x => ?_
  rw [get?_insert]
  split
  · rename_i hx
    rw [hx, hk]
  · rfl

end Dictionary

end Highlight
