import Highlight.Proofs.Text.Lines

/-!
# What is shown around an offset

Around something forbidden a hundred bytes are to be shown on either side. Where a cut would fall
inside a character, it is moved outward to the nearest place between characters, so that a few bytes
more are shown.

* `TakesBytes`, `takesBytes` -- the shortest beginning that takes a number of bytes;
* `boundaryBelow`, `boundaryAbove` -- the nearest offsets between characters;
* `boundaryBelow_of_takesBytes`, `boundaryAbove_of_takesBytes` -- where such beginnings end;
* `IllegalBy.byBytes?` -- something forbidden placed by byte offsets alone, with slices that may be
  missing;
* `byBytes?_eq_some` -- **none is missing**, and the place is the same;
* `context_cut` -- **what is shown, and how much that is**.
-/

namespace Highlight

/-! ## 1. The shortest beginning of some size -/

/-- A beginning takes `n` bytes, or is all there is, and nothing shorter takes as much. -/
structure TakesBytes (n : Nat) (taken rest : List Char) : Prop where
  enough : Text.byteLength rest = 0 ∨ n ≤ Text.byteLength taken
  least : ∀ p q, taken = p ++ q → q ≠ [] → Text.byteLength p < n

theorem takesBytes (n : Nat) (cs : List Char) :
    ∃ rest, takeBytes n cs ++ rest = cs ∧ TakesBytes n (takeBytes n cs) rest := by
  induction cs generalizing n with
  | nil =>
    have htake : takeBytes n [] = [] := by cases n <;> rfl
    rw [htake]
    refine ⟨[], rfl, .inl rfl, fun p q hpq hq => ?_⟩
    exact absurd (List.append_eq_nil_iff.mp hpq.symm).2 hq
  | cons c cs ih =>
    cases n with
    | zero =>
      refine ⟨c :: cs, rfl, .inr (Nat.zero_le _), fun p q hpq hq => ?_⟩
      exact absurd (List.append_eq_nil_iff.mp hpq.symm).2 hq
    | succ n =>
      obtain ⟨rest, hsplit, henough, hleast⟩ := ih (n + 1 - c.utf8Size)
      rw [Text.takeBytes_cons (Nat.add_one_pos n)]
      refine ⟨rest, by rw [List.cons_append, hsplit], ?_, fun p q hpq hq => ?_⟩
      · refine henough.imp_right fun hsize => ?_
        rw [Text.byteLength_cons]
        omega
      · cases p with
        | nil => exact Nat.succ_pos n
        | cons d p =>
          rw [List.cons_append, List.cons.injEq] at hpq
          have hp := hleast p q hpq.2 hq
          rw [Text.byteLength_cons, ← hpq.1]
          omega

/-- It takes three bytes more at most, since no character takes more than four. -/
theorem TakesBytes.byteLength_le {n : Nat} {taken rest : List Char} (h : TakesBytes n taken rest) :
    Text.byteLength taken ≤ n + 3 := by
  rcases List.eq_nil_or_concat taken with rfl | ⟨p, c, rfl⟩
  · exact Nat.zero_le _
  · have hp := h.least p [c] (by simp) (by simp)
    have hc : c.utf8Size ≤ 4 := c.utf8Size_le_four
    simp only [List.concat_eq_append, Text.byteLength_append, Text.byteLength_cons,
      Text.byteLength_nil]
    omega

namespace Text

/-! ## 2. Offsets between characters -/

/-- Of two beginnings of a text the one that takes no more is a beginning of the other. -/
theorem split_of_byteLength_le {xs ys xs' ys' : List Char} (h : xs ++ ys = xs' ++ ys')
    (hle : byteLength xs ≤ byteLength xs') : ∃ q, xs' = xs ++ q ∧ ys = q ++ ys' := by
  rcases List.append_eq_append_iff.mp h with ⟨q, hxs', hys⟩ | ⟨q, hxs, hys'⟩
  · exact ⟨q, hxs', hys⟩
  · have hq : q = [] := by
      refine Decidable.byContradiction fun hq => ?_
      have hpos := byteLength_pos hq
      rw [hxs, byteLength_append] at hle
      omega
    subst hq
    exact ⟨[], by simpa using hxs.symm, by simpa using hys'.symm⟩

theorem isBoundary_ofString (s : String) (b : Nat) : (ofString s).isBoundary b = true ↔
    ∃ xs ys, s.toList = xs ++ ys ∧ byteLength xs = b := by
  rw [isBoundary_iff, toStr_ofString]
  constructor
  · rintro ⟨before, after, hs, hb⟩
    exact ⟨before.toList, after.toList, by rw [hs, String.toList_append], by simpa using hb⟩
  · rintro ⟨xs, ys, hs, hb⟩
    refine ⟨String.ofList xs, String.ofList ys, ?_, by simpa using hb⟩
    rw [← String.ofList_append, ← hs, String.ofList_toList]

theorem byteOffsetFrom_length (xs ys : List Char) :
    byteOffsetFrom (xs ++ ys) xs.length = byteLength xs := by
  induction xs with
  | nil => cases ys <;> rfl
  | cons x xs ih => rw [List.cons_append, List.length_cons, byteOffsetFrom, ih, byteLength_cons]

/-- The slice that stands between two parts of a text. -/
theorem slice?_between {s : String} (xs ys zs : List Char) (hs : s.toList = xs ++ ys ++ zs) :
    (ofString s).slice? (byteLength xs) (byteLength (xs ++ ys)) = some (String.ofList ys) := by
  have hlist : (ofString s).toList = xs ++ ys ++ zs := hs
  have hsize : (xs ++ ys).length ≤ (ofString s).size := by
    rw [← Array.length_toList, hlist]
    exact (List.prefix_append (xs ++ ys) zs).length_le
  have hfrom : (ofString s).byteOffset xs.length = byteLength xs := by
    rw [byteOffset, hlist, List.append_assoc, byteOffsetFrom_length]
  have hto : (ofString s).byteOffset (xs ++ ys).length = byteLength (xs ++ ys) := by
    rw [byteOffset, hlist, byteOffsetFrom_length]
  rw [← hfrom, ← hto, slice?_byteOffset _ (by rw [List.length_append]; omega) hsize,
    slice_eq_ofList, hlist, List.take_left, List.drop_left]

/-! ## 3. The nearest offsets between characters -/

/-- The last offset between characters that is no greater. -/
def boundaryBelow (t : Text) : Nat → Nat
  | 0 => 0
  | b + 1 => if t.isBoundary (b + 1) then b + 1 else boundaryBelow t b

/-- The first offset between characters that is no less; from the end of the text on, every offset
    stays what it is. -/
def boundaryAbove (t : Text) (b : Nat) : Nat :=
  if t.isBoundary b = true ∨ t.toStr.utf8ByteSize ≤ b then b else boundaryAbove t (b + 1)
  termination_by t.toStr.utf8ByteSize - b

theorem boundaryBelow_eq {t : Text} {m b : Nat} (hm : t.isBoundary m = true) (hle : m ≤ b)
    (hnone : ∀ k, m < k → k ≤ b → t.isBoundary k = false) : t.boundaryBelow b = m := by
  induction b with
  | zero => exact (Nat.le_zero.mp hle).symm
  | succ b ih =>
    rw [boundaryBelow]
    rcases Nat.lt_or_ge b m with hlt | hge
    · obtain rfl : m = b + 1 := Nat.le_antisymm hle hlt
      rw [if_pos hm]
    · rw [if_neg (by rw [hnone (b + 1) (by omega) (Nat.le_refl _)]; decide)]
      exact ih hge fun k hmk hkb => hnone k hmk (Nat.le_succ_of_le hkb)

theorem isBoundary_boundaryBelow (t : Text) (b : Nat) : t.isBoundary (t.boundaryBelow b) = true := by
  induction b with
  | zero => exact (isBoundary_iff t 0).mpr ⟨"", t.toStr, by simp, rfl⟩
  | succ b ih =>
    rw [boundaryBelow]
    split
    · assumption
    · exact ih

theorem boundaryBelow_eq_self_iff (t : Text) (b : Nat) :
    t.boundaryBelow b = b ↔ t.isBoundary b = true :=
  ⟨fun h => h ▸ isBoundary_boundaryBelow t b,
    fun h => boundaryBelow_eq h (Nat.le_refl _) fun k hlt hle => by omega⟩

theorem boundaryAbove_eq {t : Text} {m b : Nat} (hm : t.isBoundary m = true) (hle : b ≤ m)
    (hnone : ∀ k, b ≤ k → k < m → t.isBoundary k = false) : t.boundaryAbove b = m := by
  have hend : m ≤ t.toStr.utf8ByteSize := by
    obtain ⟨before, after, htext, rfl⟩ := (isBoundary_iff t m).mp hm
    rw [htext, String.utf8ByteSize_append]
    exact Nat.le_add_right _ _
  obtain ⟨n, rfl⟩ := Nat.exists_eq_add_of_le hle
  induction n generalizing b with
  | zero =>
    rw [boundaryAbove, if_pos (.inl hm)]
    rfl
  | succ n ih =>
    have hb : ¬(t.isBoundary b = true ∨ t.toStr.utf8ByteSize ≤ b) := by
      rw [hnone b (Nat.le_refl _) (by omega)]
      simp only [Bool.false_eq_true, false_or]
      omega
    have hnext : b + (n + 1) = b + 1 + n := by omega
    rw [boundaryAbove, if_neg hb]
    rw [hnext] at hm hend hnone ⊢
    exact ih hm (by omega) (fun k hbk => hnone k (by omega)) hend

theorem isBoundary_boundaryAbove (t : Text) {b : Nat} (hb : b ≤ t.toStr.utf8ByteSize) :
    t.isBoundary (t.boundaryAbove b) = true := by
  fun_induction boundaryAbove t b with
  | case1 b hor =>
    rcases hor with hboundary | hend
    · exact hboundary
    · refine (isBoundary_iff t b).mpr ⟨t.toStr, "", by simp, ?_⟩
      omega
  | case2 b hor ih =>
    rw [not_or] at hor
    exact ih (by omega)

theorem boundaryAbove_eq_self_iff (t : Text) {b : Nat} (hb : b ≤ t.toStr.utf8ByteSize) :
    t.boundaryAbove b = b ↔ t.isBoundary b = true :=
  ⟨fun h => h ▸ isBoundary_boundaryAbove t hb,
    fun h => boundaryAbove_eq h (Nat.le_refl _) fun k hle hlt => by omega⟩

/-! ## 4. Where the shortest beginnings end -/

section Cuts

variable {s : String} {n : Nat}

/-- Read backward from an offset, the shortest part of some size begins at the last offset between
    characters that is as far away. -/
theorem boundaryBelow_of_takesBytes {front lead after : List Char}
    (hs : s.toList = front ++ lead ++ after) (h : TakesBytes n lead.reverse front.reverse) :
    (ofString s).boundaryBelow (byteLength (front ++ lead) - n) = byteLength front := by
  have hfront : (ofString s).isBoundary (byteLength front) = true :=
    (isBoundary_ofString s _).mpr ⟨front, lead ++ after, by rw [hs, List.append_assoc], rfl⟩
  refine boundaryBelow_eq hfront ?_ fun k hfrom hto => Bool.eq_false_iff.mpr fun hk => ?_
  · have henough := h.enough
    rw [byteLength_reverse, byteLength_reverse] at henough
    rw [byteLength_append]
    omega
  · obtain ⟨xs, ys, hxs, rfl⟩ := (isBoundary_ofString s k).mp hk
    rw [byteLength_append] at hto
    -- what a cut there would leave out is still a part of the lead, so too much of it is left
    obtain ⟨r, hr, -⟩ := split_of_byteLength_le (hxs.symm.trans hs)
      (by rw [byteLength_append]; omega)
    obtain ⟨q, rfl, hlead⟩ := split_of_byteLength_le hr (Nat.le_of_lt hfrom)
    have hq : q ≠ [] := by
      rintro rfl
      rw [List.append_nil] at hfrom
      exact Nat.lt_irrefl _ hfrom
    have hleast := h.least r.reverse q.reverse (by rw [hlead, List.reverse_append])
      (by simpa using hq)
    rw [byteLength_reverse] at hleast
    rw [hlead, byteLength_append, byteLength_append] at hto
    rw [byteLength_append] at hfrom
    omega

/-- Read forward from an offset, the shortest part of some size ends at the first offset between
    characters that is as far away, or at the end of the text. -/
theorem boundaryAbove_of_takesBytes {before tail back : List Char}
    (hs : s.toList = before ++ tail ++ back) (h : TakesBytes n tail back) :
    (ofString s).boundaryAbove (min (byteLength before + n) s.utf8ByteSize) =
      byteLength (before ++ tail) := by
  have hsize : s.utf8ByteSize = byteLength (before ++ tail) + byteLength back := by
    rw [← byteLength_toList, hs, byteLength_append]
  have hend : (ofString s).isBoundary (byteLength (before ++ tail)) = true :=
    (isBoundary_ofString s _).mpr ⟨before ++ tail, back, hs, rfl⟩
  refine boundaryAbove_eq hend ?_ fun k hfrom hto => Bool.eq_false_iff.mpr fun hk => ?_
  · have henough := h.enough
    rw [byteLength_append] at hsize ⊢
    omega
  · obtain ⟨xs, ys, hxs, rfl⟩ := (isBoundary_ofString s k).mp hk
    obtain ⟨r, hr, -⟩ := split_of_byteLength_le (hxs.symm.trans hs) (Nat.le_of_lt hto)
    obtain ⟨q, rfl, htail⟩ := split_of_byteLength_le hr (by omega)
    have hr : r ≠ [] := by
      rintro rfl
      rw [hr, List.append_nil] at hto
      exact Nat.lt_irrefl _ hto
    have hleast := h.least q r htail hr
    rw [byteLength_append] at hfrom hsize hto
    rw [byteLength_append] at hto
    omega

end Cuts

end Text

/-! ## 5. Something forbidden, placed by byte offsets -/

open Text (byteLength lastLine upToLine)

theorem splitAtByte_append (acc before after : List Char) :
    splitAtByte acc (byteLength before) (before ++ after) = (before.reverse ++ acc, after) := by
  rw [← Text.byteOffsetFrom_length before after, splitAtByte_byteOffsetFrom _ _ _
    (by rw [List.length_append]; omega), List.take_left, List.drop_left]

namespace IllegalBy

/-- Where in a text something forbidden stands, reckoned with byte offsets alone; nothing if one of
    the slices that are taken is missing. -/
def byBytes? (f : Fault) (code : String) : Option IllegalBy := do
  let text := Text.ofString code
  let index := min f.position.offset code.utf8ByteSize
  let before ← text.slice? 0 index
  let context ← text.slice? (text.boundaryBelow (index - contextBytes))
    (text.boundaryAbove (min (index + contextBytes) code.utf8ByteSize))
  return {
    message := f.message
    index
    context
    mode := match f.cause with
      | .illegalLexeme _ mode => mode
      | _ => Arena.unnamed
    line := before.toList.count '\n' + 1
    column := index - byteLength (upToLine before.toList) + 1 }

/-- A text around an index: what is shown before it and from it on, and what is not. -/
structure Shows (place : IllegalBy) (code front lead tail back : String) : Prop where
  code : code = front ++ lead ++ tail ++ back
  context : place.context = lead ++ tail
  index : (front ++ lead).utf8ByteSize = place.index

end IllegalBy

open IllegalBy (ofFault byBytes?)

section Placed

variable {f : Fault} {code : String} {before after : List Char}

/-- Something forbidden between two parts of a text. -/
theorem ofFault_eq (hcode : code.toList = before ++ after)
    (hindex : min f.position.offset code.utf8ByteSize = byteLength before) :
    ofFault f code =
      { message := f.message
        index := byteLength before
        context := String.ofList
          ((takeBytes contextBytes before.reverse).reverse ++ takeBytes contextBytes after)
        mode := (ofFault f code).mode
        line := before.count '\n' + 1
        column := byteLength (lastLine before) + 1 } := by
  have hcolumn : byteLength (before.reverse.takeWhile (· != '\n')) = byteLength (lastLine before) := by
    rw [lastLine, Text.byteLength_reverse]
  simp only [ofFault, hindex, hcode, splitAtByte_append, List.append_nil, List.count_reverse, hcolumn]

/-- **What is shown is the shortest part of its size on either side**, or all that there is. -/
theorem context_cut (hcode : code.toList = before ++ after)
    (hindex : min f.position.offset code.utf8ByteSize = byteLength before) :
    ∃ front lead tail back, before = front ++ lead ∧ after = tail ++ back ∧
      (ofFault f code).context = String.ofList (lead ++ tail) ∧
      TakesBytes contextBytes lead.reverse front.reverse ∧ TakesBytes contextBytes tail back := by
  obtain ⟨front, hbefore, hlead⟩ := takesBytes contextBytes before.reverse
  obtain ⟨back, hafter, htail⟩ := takesBytes contextBytes after
  refine ⟨front.reverse, (takeBytes contextBytes before.reverse).reverse, _, back, ?_, hafter.symm,
    ?_, ?_, htail⟩
  · rw [← List.reverse_append, hbefore, List.reverse_reverse]
  · rw [ofFault_eq hcode hindex]
  · rw [List.reverse_reverse, List.reverse_reverse]
    exact hlead

/-- **No slice is missing where the index falls between characters**, and the place is the same. -/
theorem byBytes?_eq_some (hcode : code.toList = before ++ after)
    (hindex : min f.position.offset code.utf8ByteSize = byteLength before) :
    byBytes? f code = some (ofFault f code) := by
  obtain ⟨front, lead, tail, back, rfl, rfl, hcontext, hlead, htail⟩ := context_cut hcode hindex
  have hbefore : (Text.ofString code).slice? 0 (byteLength (front ++ lead)) =
      some (String.ofList (front ++ lead)) := Text.slice?_between [] (front ++ lead) _ hcode
  have hslice : (Text.ofString code).slice?
      ((Text.ofString code).boundaryBelow (byteLength (front ++ lead) - contextBytes))
      ((Text.ofString code).boundaryAbove
        (min (byteLength (front ++ lead) + contextBytes) code.utf8ByteSize)) =
      some (ofFault f code).context := by
    rw [Text.boundaryBelow_of_takesBytes hcode hlead,
      Text.boundaryAbove_of_takesBytes (by rw [hcode, List.append_assoc (front ++ lead)]) htail,
      List.append_assoc, hcontext]
    exact Text.slice?_between front (lead ++ tail) back (by rw [hcode]; simp only [List.append_assoc])
  have hcolumn : byteLength (front ++ lead) - byteLength (upToLine (front ++ lead)) =
      byteLength (lastLine (front ++ lead)) := by
    have hsplit := congrArg byteLength (Text.upToLine_append_lastLine (front ++ lead))
    rw [Text.byteLength_append] at hsplit
    omega
  simp only [byBytes?, hindex, hbefore, hslice, Option.bind_eq_bind, Option.bind_some,
    String.toList_ofList, hcolumn]
  have hplace := ofFault_eq hcode hindex
  rw [congrArg IllegalBy.context hplace]
  exact congrArg some hplace.symm

/-- **How much is shown on either side**: up to the nearest place between characters that is far
    enough away. That is no more than asked for just where so many bytes away there is such a
    place. -/
theorem context_sizes (hcode : code.toList = before ++ after)
    (hindex : min f.position.offset code.utf8ByteSize = byteLength before) :
    ∃ front lead tail back, (ofFault f code).Shows code front lead tail back ∧
      front.utf8ByteSize =
        (Text.ofString code).boundaryBelow ((ofFault f code).index - contextBytes) ∧
      (front ++ lead ++ tail).utf8ByteSize = (Text.ofString code).boundaryAbove
        (min ((ofFault f code).index + contextBytes) code.utf8ByteSize) ∧
      lead.utf8ByteSize ≤ contextBytes + 3 ∧ tail.utf8ByteSize ≤ contextBytes + 3 ∧
      (lead.utf8ByteSize ≤ contextBytes ↔
        (Text.ofString code).isBoundary ((ofFault f code).index - contextBytes) = true) ∧
      (tail.utf8ByteSize ≤ contextBytes ↔ (Text.ofString code).isBoundary
        (min ((ofFault f code).index + contextBytes) code.utf8ByteSize) = true) := by
  have hplace : (ofFault f code).index = byteLength before := hindex
  obtain ⟨front, lead, tail, back, rfl, rfl, hcontext, hlead, htail⟩ := context_cut hcode hindex
  have hparts : code.toList = front ++ lead ++ tail ++ back := by
    rw [hcode, List.append_assoc (front ++ lead)]
  have hbelow := Text.boundaryBelow_of_takesBytes hcode hlead
  have habove := Text.boundaryAbove_of_takesBytes hparts htail
  have hsize : code.utf8ByteSize = byteLength (front ++ lead) + byteLength (tail ++ back) := by
    rw [← Text.byteLength_toList, hcode, Text.byteLength_append]
  have hleadSize := hlead.byteLength_le
  have hleadEnough := hlead.enough
  have htailEnough := htail.enough
  rw [Text.byteLength_reverse] at hleadSize
  rw [Text.byteLength_reverse, Text.byteLength_reverse] at hleadEnough
  refine ⟨String.ofList front, String.ofList lead, String.ofList tail, String.ofList back,
    ⟨?_, ?_, ?_⟩, ?_, ?_, ?_, ?_, ?_, ?_⟩
  · simp only [← String.ofList_append, ← hparts, String.ofList_toList]
  · rw [hcontext, String.ofList_append]
  · rw [hplace, ← String.ofList_append, Text.utf8ByteSize_ofList]
  · rw [hplace, hbelow, Text.utf8ByteSize_ofList]
  · rw [hplace, habove, ← String.ofList_append, ← String.ofList_append, Text.utf8ByteSize_ofList]
  · rwa [Text.utf8ByteSize_ofList]
  · rw [Text.utf8ByteSize_ofList]
    exact htail.byteLength_le
  · rw [hplace, ← Text.boundaryBelow_eq_self_iff, hbelow, Text.utf8ByteSize_ofList,
      Text.byteLength_append]
    omega
  · rw [hplace, ← Text.boundaryAbove_eq_self_iff _ (by rw [Text.toStr_ofString]; omega), habove,
      Text.utf8ByteSize_ofList, hsize, Text.byteLength_append (front ++ lead),
      Text.byteLength_append tail]
    omega

end Placed

end Highlight
