import Highlight.Proofs.Pattern.Renumbered

/-!
# Where a group ends

Whether a parenthesis closes a group is seen without reading the pattern: from left to right, each
character is behind a backslash or not, in a class, in a comment, or in neither. The numbers behind
backslashes make no difference in that, so a group ends in the same place with its references moved.

* `Spot`, `Escape`, `Sweep` -- where a character stands;
* `Sweep.next`, `sweep` -- one character more, and all of them up to a parenthesis that closes
  nothing;
* `sweep_append` -- texts one behind the other;
* `sweep_renumbered` -- **references that are moved make no difference**.
-/

namespace Highlight.Regex

/-! ## 1. Where a character stands -/

/-- Where a character stands, as far as parentheses and brackets go. -/
inductive Spot where
  /-- In no class and no comment. -/
  | row
  /-- Behind an opening parenthesis. -/
  | opened
  /-- Behind an opening parenthesis and a question mark. -/
  | announced
  /-- Behind those two and an angle bracket. -/
  | angled
  | comment
  /-- Behind the bracket that opens a class, and perhaps a caret; so many classes are around it. -/
  | bracket (outer : Nat) (negated : Bool)
  /-- In a class, so many of them around it. -/
  | members (outer : Nat)
  deriving DecidableEq, Repr

/-- What the characters before have to do with this one. -/
inductive Escape where
  | none
  /-- A backslash. -/
  | begun
  /-- A backslash and the letter of a control character. -/
  | control
  deriving DecidableEq, Repr

/-- How far a pattern has been looked over: where the next character stands, how many groups are open,
    and how many have been numbered. -/
structure Sweep where
  spot : Spot
  escape : Escape
  depth : Nat
  groups : Nat
  deriving DecidableEq, Repr

namespace Sweep

/-- Behind a character in a row. A parenthesis that closes no group is not passed. -/
def inRow (t : Sweep) : Char → Option Sweep
  | '\\' => some { t with spot := .row, escape := .begun }
  | '(' => some { t with spot := .opened, depth := t.depth + 1 }
  | ')' => if t.depth = 0 then none else some { t with spot := .row, depth := t.depth - 1 }
  | '[' => some { t with spot := .bracket 0 false }
  | _ => some { t with spot := .row }

/-- Behind a character in a class. -/
def inMembers (t : Sweep) (outer : Nat) : Char → Sweep
  | '\\' => { t with spot := .members outer, escape := .begun }
  | '[' => { t with spot := .bracket (outer + 1) false }
  | ']' => { t with spot := if outer = 0 then .row else .members (outer - 1) }
  | _ => { t with spot := .members outer }

/-- Behind a character that stands for itself or not, by where it stands. -/
def unescaped (t : Sweep) (c : Char) : Option Sweep :=
  match t.spot with
  | .row => t.inRow c
  | .opened =>
    if c = '?' then some { t with spot := .announced }
    else { t with groups := t.groups + 1 }.inRow c
  | .announced =>
    if c = '#' then some { t with spot := .comment, depth := t.depth - 1 }
    else if c = '<' then some { t with spot := .angled }
    else if c = '\'' then some { t with spot := .row, groups := t.groups + 1 }
    else t.inRow c
  | .angled =>
    if c = '=' ∨ c = '!' then some { t with spot := .row }
    else { t with groups := t.groups + 1 }.inRow c
  | .comment =>
    if c = '\\' then some { t with escape := .begun }
    else if c = ')' then some { t with spot := .row }
    else some t
  | .bracket outer negated =>
    if c = '^' ∧ negated = false then some { t with spot := .bracket outer true }
    else if c = ']' then some { t with spot := .members outer }
    else some (t.inMembers outer c)
  | .members outer => some (t.inMembers outer c)

/-- Behind one character more. In comments a backslash has no letters of its own. -/
def next (t : Sweep) (c : Char) : Option Sweep :=
  match t.escape with
  | .begun => some { t with escape := if c = 'c' ∧ t.spot ≠ .comment then .control else .none }
  | .control => some { t with escape := if c = '\\' then .begun else .none }
  | .none => t.unescaped c

end Sweep

/-- How far a text can be looked over, and what is left of it: nothing, or what begins with a
    parenthesis that closes no group. -/
def sweep (t : Sweep) : List Char → Sweep × List Char
  | [] => (t, [])
  | c :: cs =>
    match t.next c with
    | some t' => sweep t' cs
    | none => (t, c :: cs)

section Sweeping

variable {t t' : Sweep} {c : Char} {cs u v : List Char}

@[simp] theorem sweep_nil (t : Sweep) : sweep t [] = (t, []) := rfl

theorem sweep_next (h : t.next c = some t') (cs : List Char) : sweep t (c :: cs) = sweep t' cs := by
  rw [sweep, h]

theorem sweep_stop (h : t.next c = none) (cs : List Char) : sweep t (c :: cs) = (t, c :: cs) := by
  rw [sweep, h]

/-- A text that is passed as a whole, and what follows it. -/
theorem sweep_append (h : sweep t u = (t', [])) (v : List Char) : sweep t (u ++ v) = sweep t' v := by
  induction u generalizing t with
  | nil => cases h; rfl
  | cons c u ih =>
    cases hc : t.next c with
    | none => rw [sweep_stop hc] at h; cases h
    | some t₁ =>
      rw [sweep_next hc] at h
      rw [List.cons_append, sweep_next hc, ih h]

theorem exists_of_sweep_cons (h : sweep t (c :: cs) = (t', [])) :
    ∃ t₁, t.next c = some t₁ ∧ sweep t₁ cs = (t', []) := by
  cases hc : t.next c with
  | none => rw [sweep_stop hc] at h; cases h
  | some t₁ => exact ⟨t₁, rfl, (sweep_next hc cs).symm.trans h⟩

theorem exists_of_sweep_append (h : sweep t (u ++ v) = (t', [])) :
    ∃ t₁, sweep t u = (t₁, []) ∧ sweep t₁ v = (t', []) := by
  induction u generalizing t with
  | nil => exact ⟨t, rfl, h⟩
  | cons c u ih =>
    obtain ⟨t₁, hc, h⟩ := exists_of_sweep_cons h
    obtain ⟨t₂, hu, hv⟩ := ih h
    exact ⟨t₂, (sweep_next hc u).trans hu, hv⟩

end Sweeping

/-! ## 2. Backslashes -/

/-- Where something stands that is behind a backslash. -/
def Spot.IsBase : Spot → Prop
  | .row | .comment | .members _ => True
  | _ => False

theorem isBase_row : Spot.IsBase .row := trivial

/-- That a backslash which comes next stands behind no other one. -/
def Sweep.IsReady (t : Sweep) : Prop :=
  match t.escape with
  | .none => True
  | .begun => False
  | .control => t.spot.IsBase

section Backslashes

variable {t t' : Sweep} {c : Char} {cs : List Char}

theorem isReady_of_none (h : t.escape = .none) : t.IsReady := by
  rw [Sweep.IsReady, h]
  trivial

theorem inRow_escape (hc : c ≠ '\\') (h : t.inRow c = some t') : t'.escape = t.escape := by
  unfold Sweep.inRow at h
  split at h
  · exact absurd rfl hc
  · cases h; rfl
  · split at h <;> cases h
    rfl
  · cases h; rfl
  · cases h; rfl

theorem inMembers_escape (t : Sweep) (outer : Nat) (hc : c ≠ '\\') :
    (t.inMembers outer c).escape = t.escape := by
  unfold Sweep.inMembers
  split
  · exact absurd rfl hc
  · rfl
  · rfl
  · rfl

theorem unescaped_escape (hc : c ≠ '\\') (h : t.unescaped c = some t') : t'.escape = t.escape := by
  have hgroup : ∀ n, { t with groups := n }.inRow c = some t' → t'.escape = t.escape :=
    fun n h => inRow_escape (t := { t with groups := n }) hc h
  unfold Sweep.unescaped at h
  repeat' split at h
  · exact inRow_escape hc h
  · cases h; rfl
  · exact hgroup _ h
  · cases h; rfl
  · cases h; rfl
  · cases h; rfl
  · exact inRow_escape hc h
  · cases h; rfl
  · exact hgroup _ h
  · exact absurd ‹c = '\\'› hc
  · cases h; rfl
  · cases h; rfl
  · cases h; rfl
  · cases h; rfl
  · cases h; exact inMembers_escape t _ hc
  · cases h; exact inMembers_escape t _ hc

/-- Behind any other character no backslash stands. -/
theorem Sweep.IsReady.next (ht : t.IsReady) (hc : c ≠ '\\') (h : t.next c = some t') : t'.IsReady := by
  unfold Sweep.next at h
  split at h
  · rename_i hbegun
    rw [Sweep.IsReady, hbegun] at ht
    exact ht.elim
  · cases h
    exact isReady_of_none (if_neg hc)
  · rename_i hnone
    exact isReady_of_none ((unescaped_escape hc h).trans hnone)

/-- Behind a backslash. -/
theorem Sweep.IsReady.backslash (ht : t.IsReady) :
    ∃ t', t.next '\\' = some t' ∧ t'.escape = .begun ∧ t'.spot.IsBase := by
  obtain ⟨spot, escape, depth, groups⟩ := t
  cases escape with
  | begun => exact ht.elim
  | control => exact ⟨_, rfl, rfl, ht⟩
  | none => cases spot <;> exact ⟨_, rfl, rfl, trivial⟩

/-- Behind a backslash and another character. -/
theorem next_begun (h : t.escape = .begun) (hb : t.spot.IsBase) (c : Char) :
    ∃ t', t.next c = some t' ∧ t'.IsReady := by
  refine ⟨_, by rw [Sweep.next, h], ?_⟩
  unfold Sweep.IsReady
  split
  · trivial
  · rename_i he
    split at he <;> cases he
  · exact hb

theorem next_begun_ne (h : t.escape = .begun) (hc : c ≠ 'c') :
    t.next c = some { t with escape := .none } := by
  rw [Sweep.next, h, if_neg fun hcontrol => hc hcontrol.1]

/-- Whether a character stands for itself wherever something is behind a backslash: no bracket or
    parenthesis, no bar and no backslash. -/
def isOrdinary (c : Char) : Bool := !(['\\', '(', ')', '[', ']', '|'].contains c)

theorem ne_of_isOrdinary (hc : isOrdinary c = true) {d : Char} (hd : isOrdinary d = false) : c ≠ d := by
  rintro rfl
  rw [hc] at hd
  cases hd

theorem inRow_other (t : Sweep) (h1 : c ≠ '\\') (h2 : c ≠ '(') (h3 : c ≠ ')') (h4 : c ≠ '[') :
    t.inRow c = some { t with spot := .row } := by
  unfold Sweep.inRow
  split <;> first | contradiction | rfl

theorem inMembers_other (t : Sweep) (outer : Nat) (h1 : c ≠ '\\') (h2 : c ≠ '[') (h3 : c ≠ ']') :
    t.inMembers outer c = { t with spot := .members outer } := by
  unfold Sweep.inMembers
  split <;> first | contradiction | rfl

/-- An ordinary character is passed. -/
theorem next_ordinary (h : t.escape = .none) (hb : t.spot.IsBase) (hc : isOrdinary c = true) :
    t.next c = some t := by
  have h1 : c ≠ '\\' := ne_of_isOrdinary hc (by decide)
  have h2 : c ≠ '(' := ne_of_isOrdinary hc (by decide)
  have h3 : c ≠ ')' := ne_of_isOrdinary hc (by decide)
  have h4 : c ≠ '[' := ne_of_isOrdinary hc (by decide)
  have h5 : c ≠ ']' := ne_of_isOrdinary hc (by decide)
  obtain ⟨spot, escape, depth, groups⟩ := t
  cases h
  cases spot with
  | row => exact inRow_other _ h1 h2 h3 h4
  | comment => exact (if_neg h1).trans (if_neg h3)
  | members outer => exact congrArg some (inMembers_other _ outer h1 h4 h5)
  | _ => exact hb.elim

/-- Ordinary characters are passed. -/
theorem sweep_ordinary (h : t.escape = .none) (hb : t.spot.IsBase) :
    ∀ {u : List Char}, (∀ c ∈ u, isOrdinary c = true) → sweep t u = (t, [])
  | [], _ => rfl
  | c :: u, hu => by
      rw [sweep_next (next_ordinary h hb (hu c List.mem_cons_self))]
      exact sweep_ordinary h hb fun d hd => hu d (List.mem_cons_of_mem c hd)

theorem isOrdinary_of_isDigit (hc : c.isDigit = true) : isOrdinary c = true := by
  by_contra h
  rw [Bool.not_eq_true, isOrdinary, Bool.not_eq_false', List.contains_iff_mem] at h
  simp only [List.mem_cons, List.not_mem_nil, or_false] at h
  rcases h with rfl | rfl | rfl | rfl | rfl | rfl <;> cases hc

/-- Behind a backslash and a number, whatever number it is. -/
theorem sweep_reference (ht : t.IsReady) : ∃ t', t'.IsReady ∧ ∀ ds, ds ≠ [] →
    (∀ d ∈ ds, d.isDigit = true) → sweep t ('\\' :: ds) = (t', []) := by
  obtain ⟨t₁, hnext, hbegun, hbase⟩ := ht.backslash
  refine ⟨{ t₁ with escape := .none }, isReady_of_none rfl, fun ds hne hds => ?_⟩
  cases ds with
  | nil => exact absurd rfl hne
  | cons d ds =>
    have hd := hds d List.mem_cons_self
    have hc : d ≠ 'c' := by
      rintro rfl
      cases hd
    rw [sweep_next hnext, sweep_next (next_begun_ne hbegun hc)]
    exact sweep_ordinary (t := { t₁ with escape := .none }) rfl hbase fun e he =>
      isOrdinary_of_isDigit (hds e (List.mem_cons_of_mem d he))

/-- Behind a backslash, another character, and all that follows. -/
theorem exists_of_sweep_pair (ht : t.IsReady) (h : sweep t ('\\' :: c :: cs) = (t', [])) :
    ∃ t₁, t₁.IsReady ∧ sweep t ['\\', c] = (t₁, []) ∧ sweep t₁ cs = (t', []) := by
  obtain ⟨t₁, hnext, hbegun, hbase⟩ := ht.backslash
  obtain ⟨t₂, hc, hready⟩ := next_begun hbegun hbase c
  refine ⟨t₂, hready, by rw [sweep_next hnext, sweep_next hc, sweep_nil], ?_⟩
  rw [sweep_next hnext, sweep_next hc] at h
  exact h

end Backslashes

/-! ## 3. References that are moved -/

section Renumbered

open Pattern

/-- What seems to be a class is passed without a backslash left over. -/
theorem isReady_of_classBody : ∀ {cs body after : List Char} {t t' : Sweep},
    classBody? cs = some (body, after) → t.IsReady → sweep t body = (t', []) → t'.IsReady := by
  intro cs
  fun_induction classBody? cs with
  | case1 | case3 | case4 => intro body after t t' h; cases h
  | case2 =>
    intro body after t t' h ht hs
    cases h
    cases hs
    exact ht
  | case5 c cs h' ih =>
    intro body after t t' h ht hs
    obtain ⟨⟨b, a⟩, hb, he⟩ := Option.map_eq_some_iff.mp h
    cases he
    obtain ⟨t₁, hready, -, hs⟩ := exists_of_sweep_pair ht hs
    exact ih hb hready hs
  | case6 c cs h1 h2 h3 ih =>
    intro body after t t' h ht hs
    obtain ⟨⟨b, a⟩, hb, he⟩ := Option.map_eq_some_iff.mp h
    cases he
    have hback : c ≠ '\\' := by
      rintro rfl
      cases cs with
      | nil => exact h2 rfl rfl
      | cons d cs => exact h3 d cs rfl rfl
    obtain ⟨t₁, hnext, hs⟩ := exists_of_sweep_cons hs
    exact ih hb (ht.next hback hnext) hs

/-- Behind a reference, moved or not, everything is seen as before. -/
theorem sweep_moved (offset : Nat) {t : Sweep} (ht : t.IsReady) {d : Char} (hd : d.isDigit = true)
    (cs : List Char) : ∃ t', t'.IsReady ∧
      sweep t ('\\' :: d :: cs) = sweep t' (cs.dropWhile Char.isDigit) ∧
      ∀ v, sweep t ('\\' :: Nat.toDigits 10 (groupNumber (d :: cs.takeWhile Char.isDigit) + offset) ++
        v) = sweep t' v := by
  obtain ⟨t', hready, hsame⟩ := sweep_reference ht
  have hdigits : ∀ e ∈ d :: cs.takeWhile Char.isDigit, e.isDigit = true := by
    intro e he
    rcases List.mem_cons.mp he with rfl | he
    · exact hd
    · exact List.all_eq_true.mp List.all_takeWhile e he
  have hold := hsame (d :: cs.takeWhile Char.isDigit) (by simp) hdigits
  have hsplit : '\\' :: d :: cs =
      ('\\' :: d :: cs.takeWhile Char.isDigit) ++ cs.dropWhile Char.isDigit := by
    simp only [List.cons_append, List.takeWhile_append_dropWhile]
  refine ⟨t', hready, by rw [hsplit, sweep_append hold], fun v => ?_⟩
  exact sweep_append (hsame _ Nat.toDigits_ne_nil fun e he => isDigit_toDigits he) v

/-- **References that are moved make no difference** in where groups and classes end. -/
theorem sweep_renumbered (offset : Nat) {cs : List Char} {t t' : Sweep} (ht : t.IsReady)
    (h : sweep t cs = (t', [])) : sweep t (renumbered offset cs) = (t', []) := by
  induction hn : cs.length using Nat.strongRecOn generalizing cs t with
  | ind n ih =>
    cases cs with
    | nil => exact h
    | cons c cs =>
      simp only [List.length_cons] at hn
      -- A character that stays where it is, before what is moved.
      have hplain : ∀ {d : Char} {ds : List Char} {t : Sweep}, ds.length < n → d ≠ '\\' → t.IsReady →
          sweep t (d :: ds) = (t', []) → sweep t (d :: renumbered offset ds) = (t', []) := by
        intro d ds t hlt hd ht h
        obtain ⟨t₁, hnext, h⟩ := exists_of_sweep_cons h
        rw [sweep_next hnext]
        exact ih _ hlt (ht.next hd hnext) h rfl
      by_cases hc : isBare c = true
      · have hback : c ≠ '\\' := by rintro rfl; cases hc
        rw [renumbered_bare offset hc]
        exact hplain (by omega) hback ht h
      rcases begins_of_not_bare hc with rfl | rfl | rfl
      · cases hb : classBody? cs with
        | none =>
          rw [renumbered_unclosed offset hb]
          exact hplain (by omega) (by decide) ht h
        | some r =>
          obtain ⟨body, after⟩ := r
          have htext := text_classBody _ _ _ hb
          have hlen := congrArg List.length htext
          simp only [List.length_append, List.length_cons] at hlen
          rw [renumbered_class offset hb]
          rw [← htext] at h
          obtain ⟨t₁, hopen, h⟩ := exists_of_sweep_cons h
          obtain ⟨t₂, hbody, h⟩ := exists_of_sweep_append h
          have hready := isReady_of_classBody hb (ht.next (by decide) hopen) hbody
          rw [sweep_next hopen, sweep_append hbody]
          exact hplain (by omega) (by decide) hready h
      · by_cases hq : cs.head? = some '?'
        · obtain ⟨w, rfl⟩ := List.head?_eq_some_iff.mp hq
          simp only [List.length_cons] at hn
          rw [renumbered_special]
          obtain ⟨t₁, hopen, h⟩ := exists_of_sweep_cons h
          rw [sweep_next hopen]
          exact hplain (by omega) (by decide) (ht.next (by decide) hopen) h
        · rw [renumbered_opening offset hq]
          exact hplain (by omega) (by decide) ht h
      · cases cs with
        | nil => exact h
        | cons d cs =>
          simp only [List.length_cons] at hn
          by_cases hd : isLeading d = true
          · have hlen := (List.dropWhile_sublist Char.isDigit (l := cs)).length_le
            obtain ⟨t₁, hready, hold, hnew⟩ := sweep_moved offset ht (isDigit_leading hd).1 cs
            rw [hold] at h
            rw [renumbered_reference offset hd, ← List.cons_append, hnew]
            exact ih _ (by omega) hready h rfl
          · obtain ⟨t₁, hready, hpair, h⟩ := exists_of_sweep_pair ht h
            rw [renumbered_escaped offset (by simpa using hd)]
            refine (sweep_append hpair _).trans ?_
            exact ih _ (by omega) hready h rfl

end Renumbered

end Highlight.Regex
