import Highlight.Proofs.Text.Boundaries

/-!
# Where the lines of a text are

A text is cut behind each of its newlines. An offset falls in the line of the character that it
falls in; which line that is, and how far the character stands from its start, can be read off what
comes before the character.

* `IsLines`, `isLines_linesOf` -- a text cut into lines;
* `upToLine`, `lastLine` -- what comes before the line that a text breaks off in, and the beginning
  of that line;
* `linesOf_around` -- the lines before a character, its own, and those behind it;
* `lineAt_inside` -- what is found at an offset within a character;
* `lineAt_eq_none`, `lineAt_eq_some` -- **what is found at any offset**.
-/

namespace Highlight.Text

/-! ## 1. Sizes -/

@[simp] theorem byteLength_nil : byteLength [] = 0 := rfl

@[simp] theorem byteLength_cons (c : Char) (cs : List Char) :
    byteLength (c :: cs) = c.utf8Size + byteLength cs := rfl

@[simp] theorem byteLength_append (xs ys : List Char) :
    byteLength (xs ++ ys) = byteLength xs + byteLength ys := by
  induction xs with
  | nil => simp
  | cons x xs ih => rw [List.cons_append, byteLength_cons, ih, byteLength_cons, Nat.add_assoc]

@[simp] theorem byteLength_reverse (cs : List Char) : byteLength cs.reverse = byteLength cs := by
  induction cs with
  | nil => rfl
  | cons c cs ih => simp [ih, Nat.add_comm]

theorem byteLength_pos {cs : List Char} (h : cs ≠ []) : 0 < byteLength cs := by
  cases cs with
  | nil => exact absurd rfl h
  | cons c cs => exact Nat.lt_of_lt_of_le c.utf8Size_pos (Nat.le_add_right _ _)

@[simp] theorem utf8ByteSize_ofList (cs : List Char) :
    (String.ofList cs).utf8ByteSize = byteLength cs := by
  induction cs with
  | nil => rfl
  | cons c cs ih =>
    rw [String.ofList_cons, String.utf8ByteSize_append, String.utf8ByteSize_singleton, ih,
      byteLength_cons]

@[simp] theorem byteLength_toList (s : String) : byteLength s.toList = s.utf8ByteSize := by
  rw [← utf8ByteSize_ofList, String.ofList_toList]

/-! ## 2. Cutting a text into lines -/

/-- A text cut into lines: none is empty, newlines stand only at their ends, and each but the last
    has one there. -/
structure IsLines (lines : List (List Char)) (cs : List Char) : Prop where
  flatten : lines.flatten = cs
  inner : ∀ line ∈ lines, line ≠ [] ∧ '\n' ∉ line.dropLast
  closed : ∀ line ∈ lines.dropLast, line.getLast? = some '\n'

theorem linesOf_newline (cs : List Char) : linesOf ('\n' :: cs) = ['\n'] :: linesOf cs := by
  simp [linesOf]

/-- A character that is no newline begins the first line there is. -/
theorem linesOf_cons {c : Char} {cs line : List Char} {rest : List (List Char)} (hc : c ≠ '\n')
    (h : linesOf cs = line :: rest) : linesOf (c :: cs) = (c :: line) :: rest := by
  simp [linesOf, hc, h]

theorem linesOf_single {c : Char} (hc : c ≠ '\n') : linesOf [c] = [[c]] := by
  simp [linesOf, hc]

theorem flatten_linesOf (cs : List Char) : (linesOf cs).flatten = cs := by
  induction cs with
  | nil => rfl
  | cons c cs ih =>
    rcases Decidable.em (c = '\n') with rfl | hc
    · rw [linesOf_newline, List.flatten_cons, ih]
      rfl
    · cases hlines : linesOf cs with
      | nil =>
        rw [hlines] at ih
        obtain rfl : cs = [] := ih.symm
        rw [linesOf_single hc]
        rfl
      | cons line rest =>
        rw [linesOf_cons hc hlines, List.flatten_cons, List.cons_append, ← List.flatten_cons,
          ← hlines, ih]

/-- What is not empty has a first line, which begins as it does. -/
theorem linesOf_cons_eq (c : Char) (cs : List Char) :
    ∃ tail rest, linesOf (c :: cs) = (c :: tail) :: rest := by
  rcases Decidable.em (c = '\n') with rfl | hc
  · exact ⟨[], _, linesOf_newline cs⟩
  · cases hlines : linesOf cs with
    | nil =>
      have hcs := flatten_linesOf cs
      rw [hlines] at hcs
      obtain rfl : cs = [] := hcs.symm
      exact ⟨[], [], linesOf_single hc⟩
    | cons line rest => exact ⟨line, rest, linesOf_cons hc hlines⟩

/-- **The lines of a text are the text cut into lines.** -/
theorem isLines_linesOf (cs : List Char) : IsLines (linesOf cs) cs := by
  refine ⟨flatten_linesOf cs, ?_, ?_⟩
  · induction cs with
    | nil => simp [linesOf]
    | cons c cs ih =>
      rcases Decidable.em (c = '\n') with rfl | hc
      · rw [linesOf_newline]
        exact List.forall_mem_cons.mpr ⟨by simp, ih⟩
      · cases cs with
        | nil =>
          rw [linesOf_single hc]
          simp
        | cons d ds =>
          obtain ⟨tail, rest, hlines⟩ := linesOf_cons_eq d ds
          rw [hlines] at ih
          obtain ⟨hline, hrest⟩ := List.forall_mem_cons.mp ih
          rw [linesOf_cons hc hlines]
          refine List.forall_mem_cons.mpr ⟨⟨List.cons_ne_nil _ _, ?_⟩, hrest⟩
          rw [List.dropLast_cons_cons, List.mem_cons, not_or]
          exact ⟨Ne.symm hc, hline.2⟩
  · induction cs with
    | nil => simp [linesOf]
    | cons c cs ih =>
      cases cs with
      | nil =>
        rcases Decidable.em (c = '\n') with rfl | hc
        · simp [linesOf]
        · rw [linesOf_single hc]
          simp
      | cons d ds =>
        obtain ⟨tail, rest, hlines⟩ := linesOf_cons_eq d ds
        rcases Decidable.em (c = '\n') with rfl | hc
        · rw [linesOf_newline, hlines, List.dropLast_cons_cons, ← hlines]
          exact List.forall_mem_cons.mpr ⟨rfl, ih⟩
        · rw [linesOf_cons hc hlines]
          rw [hlines] at ih
          -- the first line only gains a character in front, and ends as before
          cases rest with
          | nil => simp
          | cons next rest =>
            rw [List.dropLast_cons_cons] at ih ⊢
            obtain ⟨hline, hrest⟩ := List.forall_mem_cons.mp ih
            exact List.forall_mem_cons.mpr ⟨by rw [List.getLast?_cons_cons, hline], hrest⟩

/-! ## 3. What comes before a line -/

/-- A text that does not break off in a line. -/
def IsClosed (cs : List Char) : Prop := cs = [] ∨ ∃ xs, cs = xs ++ ['\n']

/-- What comes before the line that a text breaks off in. -/
def upToLine (cs : List Char) : List Char := (cs.reverse.dropWhile (· != '\n')).reverse

/-- The beginning of the line that a text breaks off in. -/
def lastLine (cs : List Char) : List Char := (cs.reverse.takeWhile (· != '\n')).reverse

theorem upToLine_append_lastLine (cs : List Char) : upToLine cs ++ lastLine cs = cs := by
  rw [upToLine, lastLine, ← List.reverse_append, List.takeWhile_append_dropWhile,
    List.reverse_reverse]

theorem newline_notMem_lastLine (cs : List Char) : '\n' ∉ lastLine cs := by
  intro h
  have hall : (cs.reverse.takeWhile (· != '\n')).all (· != '\n') = true := List.all_takeWhile
  exact absurd (List.all_eq_true.mp hall '\n' (List.mem_reverse.mp h)) (by decide)

theorem isClosed_upToLine (cs : List Char) : IsClosed (upToLine cs) := by
  unfold upToLine
  cases hdrop : cs.reverse.dropWhile (· != '\n') with
  | nil => exact .inl rfl
  | cons d ds =>
    have hd := List.head?_dropWhile_not (· != '\n') cs.reverse
    simp only [hdrop, List.head?_cons, bne_eq_false_iff_eq] at hd
    exact .inr ⟨ds.reverse, by rw [List.reverse_cons, hd]⟩

/-- The newlines of a text come before the line that it breaks off in. -/
theorem count_upToLine (cs : List Char) : (upToLine cs).count '\n' = cs.count '\n' := by
  conv => rhs; rw [← upToLine_append_lastLine cs, List.count_append,
    List.count_eq_zero.mpr (newline_notMem_lastLine cs), Nat.add_zero]

theorem linesOf_append_newline (xs cs : List Char) :
    linesOf (xs ++ '\n' :: cs) = linesOf (xs ++ ['\n']) ++ linesOf cs := by
  induction xs with
  | nil => rw [List.nil_append, List.nil_append, linesOf_newline, linesOf_newline]; rfl
  | cons x xs ih =>
    rcases Decidable.em (x = '\n') with rfl | hx
    · rw [List.cons_append, List.cons_append, linesOf_newline, linesOf_newline, ih,
        List.cons_append]
    · obtain ⟨line, rest, hlines⟩ : ∃ line rest, linesOf (xs ++ ['\n']) = line :: rest := by
        cases xs with
        | nil => exact ⟨_, _, linesOf_newline []⟩
        | cons d ds =>
          obtain ⟨tail, rest, hlines⟩ := linesOf_cons_eq d (ds ++ ['\n'])
          exact ⟨_, rest, hlines⟩
      rw [hlines, List.cons_append] at ih
      rw [List.cons_append, List.cons_append, linesOf_cons hx ih, linesOf_cons hx hlines,
        List.cons_append]

/-- Behind a newline the lines begin anew. -/
theorem linesOf_append {xs : List Char} (hxs : IsClosed xs) (cs : List Char) :
    linesOf (xs ++ cs) = linesOf xs ++ linesOf cs := by
  rcases hxs with rfl | ⟨ys, rfl⟩
  · rfl
  · rw [List.append_assoc]
    exact linesOf_append_newline ys cs

/-- Each line that is closed has its newline. -/
theorem length_linesOf {xs : List Char} (hxs : IsClosed xs) :
    (linesOf xs).length = xs.count '\n' := by
  have hcount : ∀ ys : List Char,
      (linesOf (ys ++ ['\n'])).length = (ys ++ ['\n']).count '\n' := fun ys => by
    induction ys with
    | nil => rfl
    | cons y ys ih =>
      rcases Decidable.em (y = '\n') with rfl | hy
      · rw [List.cons_append, linesOf_newline, List.length_cons, ih, List.count_cons_self]
      · cases hlines : linesOf (ys ++ ['\n']) with
        | nil =>
          have hflat := flatten_linesOf (ys ++ ['\n'])
          rw [hlines] at hflat
          simp at hflat
        | cons line rest =>
          rw [hlines] at ih
          rw [List.cons_append, linesOf_cons hy hlines, List.count_cons_of_ne hy, ← ih]
          rfl
  rcases hxs with rfl | ⟨ys, rfl⟩
  · rfl
  · exact hcount ys

/-- What has no newline is the beginning of the line that follows it. -/
theorem linesOf_append_open {p cs line : List Char} {rest : List (List Char)} (hp : '\n' ∉ p)
    (h : linesOf cs = line :: rest) : linesOf (p ++ cs) = (p ++ line) :: rest := by
  induction p with
  | nil => exact h
  | cons x p ih =>
    rw [List.mem_cons, not_or] at hp
    exact linesOf_cons (Ne.symm hp.1) (ih hp.2)

/-- **The lines before a place, its own, and those behind it.** -/
theorem linesOf_around (before : List Char) {cs line : List Char} {rest : List (List Char)}
    (h : linesOf cs = line :: rest) :
    linesOf (before ++ cs) = linesOf (upToLine before) ++ (lastLine before ++ line) :: rest := by
  conv => lhs; rw [← upToLine_append_lastLine before, List.append_assoc]
  rw [linesOf_append (isClosed_upToLine before),
    linesOf_append_open (newline_notMem_lastLine before) h]

/-! ## 4. The line at an offset -/

theorem placeIn_append (earlier later : List (List Char)) {line : List Char} {k : Nat}
    (hk : k < byteLength line) (number : Nat) :
    placeIn number (earlier ++ line :: later) (byteLength earlier.flatten + k) =
      some ⟨number + earlier.length, line, k⟩ := by
  induction earlier generalizing number with
  | nil => simp [placeIn, hk]
  | cons first earlier ih =>
    have hpast : ¬byteLength (first :: earlier).flatten + k < byteLength first := by
      rw [List.flatten_cons, byteLength_append]
      omega
    have hrest : byteLength (first :: earlier).flatten + k - byteLength first =
        byteLength earlier.flatten + k := by
      rw [List.flatten_cons, byteLength_append]
      omega
    rw [List.cons_append, placeIn, if_neg hpast, hrest, ih, List.length_cons]
    simp only [Option.some.injEq, LinePlace.mk.injEq, and_true]
    omega

theorem placeIn_eq_none {lines : List (List Char)} {offset : Nat}
    (h : byteLength lines.flatten ≤ offset) (number : Nat) : placeIn number lines offset = none := by
  induction lines generalizing number offset with
  | nil => rfl
  | cons line lines ih =>
    rw [List.flatten_cons, byteLength_append] at h
    rw [placeIn, if_neg (by omega), ih (by omega)]

/-- **An offset within a character falls in the line of the character**: after as many lines as there
    are newlines before it, and as far from the start as the beginning of that line takes. -/
theorem lineAt_inside {s : String} {before after : List Char} {c : Char} {k : Nat}
    (hs : s.toList = before ++ c :: after) (hk : k < c.utf8Size) :
    ∃ tail rest, linesOf (c :: after) = (c :: tail) :: rest ∧
      lineAt s (byteLength before + k) = some
        ⟨before.count '\n' + 1, lastLine before ++ c :: tail, byteLength (lastLine before) + k⟩ := by
  obtain ⟨tail, rest, hlines⟩ := linesOf_cons_eq c after
  refine ⟨tail, rest, hlines, ?_⟩
  have hwithin : byteLength (lastLine before) + k < byteLength (lastLine before ++ c :: tail) := by
    rw [byteLength_append, byteLength_cons]
    omega
  have hsize : byteLength before = byteLength (upToLine before) + byteLength (lastLine before) := by
    rw [← byteLength_append, upToLine_append_lastLine]
  have hplace := placeIn_append (linesOf (upToLine before)) rest hwithin 1
  rw [flatten_linesOf, length_linesOf (isClosed_upToLine before), count_upToLine] at hplace
  rw [lineAt, hs, linesOf_around before hlines, hsize, Nat.add_assoc, hplace, Nat.add_comm 1]

/-- An offset before the end of a text falls in one of its characters. -/
theorem exists_inside {cs : List Char} {offset : Nat} (h : offset < byteLength cs) :
    ∃ before c after k, cs = before ++ c :: after ∧ k < c.utf8Size ∧
      offset = byteLength before + k := by
  induction cs generalizing offset with
  | nil => cases h
  | cons c cs ih =>
    by_cases hc : offset < c.utf8Size
    · exact ⟨[], c, cs, offset, rfl, hc, (Nat.zero_add _).symm⟩
    · rw [byteLength_cons] at h
      have hrest : offset - c.utf8Size < byteLength cs := by omega
      obtain ⟨before, d, after, k, rfl, hk, hoffset⟩ := ih hrest
      exact ⟨c :: before, d, after, k, rfl, hk, by rw [byteLength_cons]; omega⟩

/-! ## 5. Newlines before an offset -/

theorem takeBytes_cons {n : Nat} (hn : 0 < n) (c : Char) (cs : List Char) :
    takeBytes n (c :: cs) = c :: takeBytes (n - c.utf8Size) cs := by
  cases n with
  | zero => cases hn
  | succ n => rfl

theorem takeBytes_append (xs cs : List Char) (k : Nat) :
    takeBytes (byteLength xs + k) (xs ++ cs) = xs ++ takeBytes k cs := by
  induction xs with
  | nil => simp
  | cons x xs ih =>
    have hpos : 0 < byteLength (x :: xs) + k := Nat.add_pos_left (byteLength_pos (by simp)) k
    have hrest : byteLength (x :: xs) + k - x.utf8Size = byteLength xs + k := by
      rw [byteLength_cons]
      omega
    rw [List.cons_append, takeBytes_cons hpos, hrest, ih, List.cons_append]

/-- How many newlines begin before a byte offset. -/
def newlinesBefore (s : String) (offset : Nat) : Nat := (takeBytes offset s.toList).count '\n'

/-- A newline takes a single byte, so that no offset falls inside of it. -/
theorem newlinesBefore_inside {s : String} {before after : List Char} {c : Char} {k : Nat}
    (hs : s.toList = before ++ c :: after) (hk : k < c.utf8Size) :
    newlinesBefore s (byteLength before + k) = before.count '\n' := by
  rw [newlinesBefore, hs, takeBytes_append, List.count_append]
  cases k with
  | zero => simp [takeBytes]
  | succ k =>
    have hc : c ≠ '\n' := by
      rintro rfl
      have : '\n'.utf8Size = 1 := rfl
      omega
    have hover : k + 1 - c.utf8Size = 0 := by omega
    rw [takeBytes_cons (Nat.succ_pos k), hover]
    simp [takeBytes, List.count_cons_of_ne hc]

/-- **From the end of a text on, no line is found.** -/
theorem lineAt_eq_none {s : String} {offset : Nat} (h : s.utf8ByteSize ≤ offset) :
    lineAt s offset = none := by
  refine placeIn_eq_none ?_ 1
  rw [flatten_linesOf, byteLength_toList]
  exact h

/-- **Before the end of a text, the line is found that the offset falls in.** It is numbered by the
    newlines before the offset, and the column is the distance from where the line begins. -/
theorem lineAt_eq_some {s : String} {offset : Nat} (h : offset < s.utf8ByteSize) :
    ∃ place earlier later, lineAt s offset = some place ∧
      IsLines (earlier ++ place.line :: later) s.toList ∧
      earlier.flatten ++ place.line <+: s.toList ∧
      byteLength earlier.flatten ≤ offset ∧
      offset < byteLength (earlier.flatten ++ place.line) ∧
      place.number = 1 + newlinesBefore s offset ∧
      place.column = offset - byteLength earlier.flatten := by
  rw [← byteLength_toList] at h
  obtain ⟨before, c, after, k, hs, hk, rfl⟩ := exists_inside h
  obtain ⟨tail, rest, hlines, hplace⟩ := lineAt_inside hs hk
  have hcut : IsLines (linesOf (upToLine before) ++ (lastLine before ++ c :: tail) :: rest)
      s.toList := by
    rw [← linesOf_around before hlines, ← hs]
    exact isLines_linesOf _
  have hsize : byteLength before = byteLength (upToLine before) + byteLength (lastLine before) := by
    rw [← byteLength_append, upToLine_append_lastLine]
  refine ⟨_, linesOf (upToLine before), rest, hplace, hcut, ⟨rest.flatten, ?_⟩, ?_, ?_, ?_, ?_⟩
  · rw [← hcut.flatten, List.flatten_append, List.flatten_cons, List.append_assoc]
  · rw [flatten_linesOf]
    omega
  · rw [flatten_linesOf, byteLength_append, byteLength_append, byteLength_cons]
    omega
  · rw [newlinesBefore_inside hs hk, Nat.add_comm]
  · rw [flatten_linesOf]
    show byteLength (lastLine before) + k = _
    omega

end Highlight.Text
