import Highlight.Outcome
import Highlight.Proofs.Text.Slices

/-!
# Byte offsets that fall between characters

A text is addressed by character index here, and by byte offset where offsets are shown or reckoned
with. A slice by byte offsets is there only if both fall between characters and come in order.

* `isBoundary`, `isBoundary_iff` -- offsets that fall between characters;
* `slice?`, `slice?_eq_some_iff` -- slices by byte offsets, where there are any;
* `slice?_byteOffset` -- the slice between two indices;
* `nextBoundary`, `nextBoundary_byteOffset` -- the offset behind one character more;
* `context_ofFault` -- what is shown around a fault is such a slice.
-/

namespace Highlight.Text

/-! ## 1. From indices to offsets and back -/

theorem indexFrom_byteOffsetFrom : ∀ (cs : List Char) (i : Nat),
    indexFrom cs (byteOffsetFrom cs i) = i
  | [], _ => rfl
  | _ :: _, 0 => rfl
  | c :: cs, i + 1 => by
      have hpos : 0 < c.utf8Size := c.utf8Size_pos
      obtain ⟨n, hn⟩ : ∃ n, byteOffsetFrom (c :: cs) (i + 1) = n + 1 :=
        ⟨c.utf8Size + byteOffsetFrom cs i - 1, by simp only [byteOffsetFrom]; omega⟩
      have htail : n + 1 - c.utf8Size = byteOffsetFrom cs i := by
        simp only [byteOffsetFrom] at hn
        omega
      rw [hn, indexFrom, htail, indexFrom_byteOffsetFrom cs i, Nat.add_comm]

/-- The index at the offset of an index is that index. -/
@[simp] theorem indexAt_byteOffset (t : Text) (i : Nat) : t.indexAt (t.byteOffset i) = i :=
  indexFrom_byteOffsetFrom t.toList i

theorem byteOffsetFrom_take : ∀ (cs : List Char) (i : Nat), i ≤ cs.length →
    (String.ofList (cs.take i)).utf8ByteSize = byteOffsetFrom cs i
  | [], 0, _ => rfl
  | _ :: _, 0, _ => rfl
  | c :: cs, i + 1, h => by
      have ih := byteOffsetFrom_take cs i (Nat.le_of_succ_le_succ h)
      rw [List.take_succ_cons, String.ofList_cons, String.utf8ByteSize_append,
        String.utf8ByteSize_singleton, ih, byteOffsetFrom]

/-- Up to the end, the offset of an index is the size of what comes before it. -/
theorem utf8ByteSize_slice_zero (t : Text) {i : Nat} (h : i ≤ t.size) :
    (t.slice 0 i).utf8ByteSize = t.byteOffset i := by
  rw [slice_eq_ofList, List.drop_zero]
  exact byteOffsetFrom_take t.toList i (by simpa using h)

theorem byteOffset_size (t : Text) : t.byteOffset t.size = t.toStr.utf8ByteSize := by
  rw [← utf8ByteSize_slice_zero t (Nat.le_refl _), slice_zero_of_size_le t (Nat.le_refl _)]

/-- An offset grows by what is read. -/
theorem byteOffset_add_slice (t : Text) {i j : Nat} (hij : i ≤ j) (hj : j ≤ t.size) :
    t.byteOffset i + (t.slice i j).utf8ByteSize = t.byteOffset j := by
  rw [← utf8ByteSize_slice_zero t (Nat.le_trans hij hj), ← utf8ByteSize_slice_zero t hj,
    ← String.utf8ByteSize_append, slice_append t (Nat.zero_le i) hij]

theorem byteOffset_le (t : Text) {i j : Nat} (hij : i ≤ j) (hj : j ≤ t.size) :
    t.byteOffset i ≤ t.byteOffset j := by
  have := byteOffset_add_slice t hij hj
  omega

/-! ## 2. Boundaries -/

/-- Whether a byte offset falls between two characters of a text, or at one of its ends. -/
def isBoundary (t : Text) (b : Nat) : Bool :=
  decide (t.indexAt b ≤ t.size) && t.byteOffset (t.indexAt b) == b

theorem isBoundary_byteOffset (t : Text) {i : Nat} (h : i ≤ t.size) :
    t.isBoundary (t.byteOffset i) = true := by
  simp [isBoundary, h]

/-- What comes before a boundary and what comes behind it. -/
theorem isBoundary_iff (t : Text) (b : Nat) : t.isBoundary b = true ↔
    ∃ before after, t.toStr = before ++ after ∧ before.utf8ByteSize = b := by
  constructor
  · intro h
    simp only [isBoundary, Bool.and_eq_true, decide_eq_true_eq, beq_iff_eq] at h
    refine ⟨t.slice 0 (t.indexAt b), t.slice (t.indexAt b) t.size, ?_, ?_⟩
    · rw [slice_append t (Nat.zero_le _) h.1, slice_zero_of_size_le t (Nat.le_refl _)]
    · rw [utf8ByteSize_slice_zero t h.1, h.2]
  · rintro ⟨before, after, htext, rfl⟩
    have hlist : t.toList = before.toList ++ after.toList := by
      rw [← String.toList_append, ← htext, toStr, String.toList_ofList]
    have hlength : before.toList.length ≤ t.size := by
      rw [← Array.length_toList, hlist, List.length_append]
      omega
    have hoffset : t.byteOffset before.toList.length = before.utf8ByteSize := by
      rw [← utf8ByteSize_slice_zero t hlength, slice_eq_ofList, List.drop_zero, hlist,
        List.take_left, String.ofList_toList]
    rw [← hoffset]
    exact isBoundary_byteOffset t hlength

/-! ## 3. Slices by byte offsets -/

/-- The text between two byte offsets; there is one if both fall between characters and come in
    order. -/
def slice? (t : Text) (b e : Nat) : Option String :=
  if b ≤ e ∧ t.isBoundary b = true ∧ t.isBoundary e = true then
    some (t.slice (t.indexAt b) (t.indexAt e))
  else none

/-- **The slice between two indices of a text is there, by their byte offsets.** -/
theorem slice?_byteOffset (t : Text) {i j : Nat} (hij : i ≤ j) (hj : j ≤ t.size) :
    t.slice? (t.byteOffset i) (t.byteOffset j) = some (t.slice i j) := by
  have hbounds := And.intro (byteOffset_le t hij hj)
    (And.intro (isBoundary_byteOffset t (Nat.le_trans hij hj)) (isBoundary_byteOffset t hj))
  rw [slice?, if_pos hbounds, indexAt_byteOffset, indexAt_byteOffset]

/-- A slice by byte offsets is what stands between them. -/
theorem eq_of_slice?_eq_some (t : Text) {b e : Nat} {u : String} (h : t.slice? b e = some u) :
    ∃ before after, t.toStr = before ++ u ++ after ∧ before.utf8ByteSize = b ∧
      (before ++ u).utf8ByteSize = e := by
  unfold slice? at h
  split at h
  · rename_i hbounds
    obtain ⟨hle, hb, he⟩ := hbounds
    simp only [isBoundary, Bool.and_eq_true, decide_eq_true_eq, beq_iff_eq] at hb he
    cases h
    have hij : t.indexAt b ≤ t.indexAt e := by
      refine Nat.le_of_not_lt fun hlt => ?_
      have hback := byteOffset_add_slice t (Nat.le_of_lt hlt) hb.1
      have hsame : t.slice (t.indexAt e) (t.indexAt b) = "" := by
        rw [← String.utf8ByteSize_eq_zero_iff]
        omega
      have hempty : (t.toList.take (t.indexAt b)).drop (t.indexAt e) = [] := by
        rw [← toList_slice, hsame]
        rfl
      rw [List.drop_eq_nil_iff, List.length_take, Array.length_toList] at hempty
      omega
    refine ⟨t.slice 0 (t.indexAt b), t.slice (t.indexAt e) t.size, ?_, ?_, ?_⟩
    · rw [slice_append t (Nat.zero_le _) hij, slice_append t (Nat.zero_le _) he.1,
        slice_zero_of_size_le t (Nat.le_refl _)]
    · rw [utf8ByteSize_slice_zero t hb.1, hb.2]
    · rw [slice_append t (Nat.zero_le _) hij, utf8ByteSize_slice_zero t he.1, he.2]
  · cases h

/-! ## 4. One character more -/

/-- The offset behind the character at a byte offset, or the next one where there is no character. -/
def nextBoundary (t : Text) (b : Nat) : Nat :=
  match t[t.indexAt b]? with
  | some c => b + c.utf8Size
  | none => b + 1

theorem byteOffsetFrom_succ : ∀ (cs : List Char) (i : Nat), i ≤ cs.length →
    byteOffsetFrom cs (i + 1) = match cs[i]? with
      | some c => byteOffsetFrom cs i + c.utf8Size
      | none => byteOffsetFrom cs i + 1
  | [], 0, _ => rfl
  | c :: cs, 0, _ => by cases cs <;> simp [byteOffsetFrom]
  | c :: cs, i + 1, h => by
      have ih := byteOffsetFrom_succ cs i (Nat.le_of_succ_le_succ h)
      rw [byteOffsetFrom, ih, List.getElem?_cons_succ]
      cases cs[i]? <;> simp [byteOffsetFrom, Nat.add_assoc]

/-- **One character more is one index more**, and so is a step beyond the end. -/
theorem nextBoundary_byteOffset (t : Text) {i : Nat} (h : i ≤ t.size) :
    t.nextBoundary (t.byteOffset i) = t.byteOffset (i + 1) := by
  have hsucc := byteOffsetFrom_succ t.toList i (by simpa using h)
  rw [nextBoundary, indexAt_byteOffset, byteOffset, byteOffset, hsucc, Array.getElem?_toList]

end Highlight.Text

/-! ## 5. What is shown around a fault -/

namespace Highlight

theorem splitAtByte_byteOffsetFrom : ∀ (cs before : List Char) (i : Nat), i ≤ cs.length →
    splitAtByte before (Text.byteOffsetFrom cs i) cs = ((cs.take i).reverse ++ before, cs.drop i)
  | [], before, 0, _ => rfl
  | c :: cs, before, 0, _ => rfl
  | c :: cs, before, i + 1, h => by
      have hpos : 0 < c.utf8Size := c.utf8Size_pos
      obtain ⟨n, hn⟩ : ∃ n, Text.byteOffsetFrom (c :: cs) (i + 1) = n + 1 :=
        ⟨c.utf8Size + Text.byteOffsetFrom cs i - 1, by simp only [Text.byteOffsetFrom]; omega⟩
      have htail : n + 1 - c.utf8Size = Text.byteOffsetFrom cs i := by
        simp only [Text.byteOffsetFrom] at hn
        omega
      rw [hn, splitAtByte, htail,
        splitAtByte_byteOffsetFrom cs (c :: before) i (Nat.le_of_succ_le_succ h)]
      simp

theorem takeBytes_eq_take : ∀ (n : Nat) (cs : List Char), ∃ j ≤ cs.length, takeBytes n cs = cs.take j
  | 0, cs => ⟨0, Nat.zero_le _, by simp [takeBytes]⟩
  | _ + 1, [] => ⟨0, Nat.zero_le _, rfl⟩
  | n + 1, c :: cs => by
      obtain ⟨j, hj, htake⟩ := takeBytes_eq_take (n + 1 - c.utf8Size) cs
      exact ⟨j + 1, Nat.succ_le_succ hj, by rw [takeBytes, htake, List.take_succ_cons]⟩

/-- **What is shown around a fault is a slice of the text** around the character where it lies. -/
theorem context_ofFault (t : Text) (f : Fault) {i : Nat} (hi : i ≤ t.size)
    (hf : f.position.offset = t.byteOffset i) :
    (IllegalBy.ofFault f t.toStr).index = t.byteOffset i ∧
    ∃ b e, b ≤ t.byteOffset i ∧ t.byteOffset i ≤ e ∧
      t.slice? b e = some (IllegalBy.ofFault f t.toStr).context := by
  have hindex : (IllegalBy.ofFault f t.toStr).index = t.byteOffset i := by
    have hle := Text.byteOffset_le t hi (Nat.le_refl _)
    rw [Text.byteOffset_size] at hle
    show min f.position.offset t.toStr.utf8ByteSize = _
    rw [hf, Nat.min_eq_left hle]
  refine ⟨hindex, ?_⟩
  have hsplit := splitAtByte_byteOffsetFrom t.toList [] i (by simpa using hi)
  have hmin : min f.position.offset t.toStr.utf8ByteSize = Text.byteOffsetFrom t.toList i := hindex
  obtain ⟨j1, hj1, hbefore⟩ := takeBytes_eq_take contextBytes (t.toList.take i).reverse
  obtain ⟨j2, hj2, hafter⟩ := takeBytes_eq_take contextBytes (t.toList.drop i)
  rw [List.length_reverse, List.length_take, Array.length_toList, Nat.min_eq_left hi] at hj1
  rw [List.length_drop, Array.length_toList] at hj2
  have hcontext : (IllegalBy.ofFault f t.toStr).context = t.slice (i - j1) (i + j2) := by
    have hlist : (((t.toList.take i).reverse.take j1).reverse ++ (t.toList.drop i).take j2) =
        (t.toList.take (i + j2)).drop (i - j1) := by
      have hlength : (t.toList.take i).length = i := by
        rw [List.length_take, Array.length_toList, Nat.min_eq_left hi]
      rw [List.take_reverse, List.reverse_reverse, hlength, List.take_add,
        List.drop_append_of_le_length (by omega)]
    show String.ofList ((takeBytes contextBytes (splitAtByte [] _ t.toStr.toList).1).reverse ++
      takeBytes contextBytes (splitAtByte [] _ t.toStr.toList).2) = _
    rw [hmin, Text.toStr, String.toList_ofList, hsplit, List.append_nil, hbefore, hafter, hlist,
      Text.slice_eq_ofList]
  refine ⟨t.byteOffset (i - j1), t.byteOffset (i + j2), Text.byteOffset_le t (Nat.sub_le _ _) hi,
    Text.byteOffset_le t (Nat.le_add_right _ _) (by omega), ?_⟩
  rw [hcontext]
  exact Text.slice?_byteOffset t (by omega) (by omega)

end Highlight
