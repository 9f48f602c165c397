import Highlight.Text.Slice

/-!
# Slices of a text

* `slice_append` -- slices that lie end to end make one slice;
* `slice_zero_size` -- the slice that is the whole text;
* `isPrefix_slice` -- a slice from the start is a beginning of the text;
* `byteSize_take` -- the byte offset of an index is the size of what comes before it.
-/

namespace Highlight.Text

theorem toList_slice (t : Text) (i j : Nat) :
    (t.slice i j).toList = (t.toList.take j).drop i := by
  simp [slice, List.drop_take]

theorem slice_eq_ofList (t : Text) (i j : Nat) :
    t.slice i j = String.ofList ((t.toList.take j).drop i) := by
  rw [← toList_slice, String.ofList_toList]

@[simp] theorem slice_self (t : Text) (i : Nat) : t.slice i i = "" := by
  rw [slice_eq_ofList, List.drop_eq_nil_of_le (by rw [List.length_take]; omega)]

/-- **Slices that lie end to end make one slice.** -/
theorem slice_append (t : Text) {i j k : Nat} (hij : i ≤ j) (hjk : j ≤ k) :
    t.slice i j ++ t.slice j k = t.slice i k := by
  have h : ∀ cs : List Char, (cs.take j).drop i ++ (cs.take k).drop j = (cs.take k).drop i := by
    intro cs
    have hs : (cs.take k).take j = cs.take j := by rw [List.take_take, Nat.min_eq_left hjk]
    have hd : ((cs.take k).drop i).drop (j - i) = (cs.take k).drop j := by
      rw [List.drop_drop, Nat.add_sub_cancel' hij]
    rw [← hs, List.drop_take, ← hd, List.take_append_drop]
  rw [slice_eq_ofList, slice_eq_ofList, slice_eq_ofList, ← String.ofList_append, h]

theorem slice_of_size_le (t : Text) {i j : Nat} (h : t.size ≤ i) : t.slice i j = "" := by
  have hl : (t.toList.take j).length ≤ i := by
    rw [List.length_take, Array.length_toList]
    omega
  rw [slice_eq_ofList, List.drop_eq_nil_of_le hl]

/-- A slice that ends behind the text ends with it. -/
theorem slice_to_size (t : Text) (i : Nat) {j : Nat} (h : t.size ≤ j) :
    t.slice i j = t.slice i t.size := by
  have hall : ∀ {j : Nat}, t.size ≤ j → t.toList.take j = t.toList := fun h =>
    List.take_of_length_le (by rw [Array.length_toList]; exact h)
  rw [slice_eq_ofList, slice_eq_ofList, hall h, hall (Nat.le_refl _)]

theorem slice_zero_of_size_le (t : Text) {j : Nat} (h : t.size ≤ j) : t.slice 0 j = t.toStr := by
  rw [slice_eq_ofList, List.drop_zero, List.take_of_length_le (by rw [Array.length_toList]; exact h)]
  rfl

@[simp] theorem toStr_ofString (s : String) : (ofString s).toStr = s := by
  simp [toStr, ofString]

/-- The slice up to the end is the whole text. -/
theorem slice_zero_size (s : String) : (ofString s).slice 0 (ofString s).size = s := by
  rw [slice_zero_of_size_le _ (Nat.le_refl _), toStr_ofString]

theorem length_slice (t : Text) {i j : Nat} (h : j ≤ t.size) : (t.slice i j).length = j - i := by
  rw [slice_eq_ofList, String.length_ofList, List.length_drop, List.length_take, Array.length_toList,
    Nat.min_eq_left h]

/-- The text up to an index, and the rest of it. -/
theorem slice_zero_append (t : Text) (i : Nat) : t.slice 0 i ++ t.slice i t.size = t.toStr := by
  rcases Nat.le_total i t.size with hle | hle
  · rw [slice_append t (Nat.zero_le _) hle, slice_zero_of_size_le t (Nat.le_refl _)]
  · rw [slice_of_size_le t hle, String.append_empty, slice_zero_of_size_le t hle]

/-- What comes before the end of a slice from the start is a beginning of the text. -/
theorem isPrefix_slice {t : Text} {a b : String} {i : Nat} (h : a ++ b = t.slice 0 i) :
    a.toList <+: t.toList := by
  have hl : a.toList ++ b.toList = t.toList.take i := by
    rw [← String.toList_append, h, toList_slice, List.drop_zero]
  exact (List.prefix_append a.toList b.toList).trans (hl ▸ List.take_prefix i t.toList)

/-- **The byte offset of an index is the size of what comes before it**, or lies past the end. -/
theorem byteSize_take : ∀ (cs : List Char) (i : Nat),
    (String.ofList (cs.take i)).utf8ByteSize =
      min (byteOffsetFrom cs i) (String.ofList cs).utf8ByteSize
  | [], i => by simp [byteOffsetFrom]
  | c :: cs, 0 => by simp [byteOffsetFrom]
  | c :: cs, i + 1 => by
      have ih := byteSize_take cs i
      simp only [List.take_succ_cons, String.ofList_cons, String.utf8ByteSize_append,
        String.utf8ByteSize_singleton, byteOffsetFrom, ih]
      omega

end Highlight.Text
