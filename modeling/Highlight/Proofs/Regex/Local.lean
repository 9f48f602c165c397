import Highlight.Regex.Reader
import Highlight.Proofs.Pattern.Pieces

/-!
# What a reader looks at

A reader that takes one thing from the front of a text looks no further than the plain characters
there: it answers the same whatever stands behind them.

* `leadingDecimal_append`, `leadingDecimal_toDigits` -- numbers;
* `readRepeat_append` -- repetitions;
-/

namespace Highlight.Regex

open Pattern (isBare Stops)

/-! ## 1. Numbers -/

section Numbers

variable {base : Nat} {isDigit : Char → Bool}

theorem leadingNumber_append {v : List Char} (hv : ∀ c, v.head? = some c → isDigit c = false) :
    ∀ (most n : Nat) (u : List Char),
      leadingNumber base isDigit most n (u ++ v) =
        ((leadingNumber base isDigit most n u).1, (leadingNumber base isDigit most n u).2 ++ v)
  | 0, _, _ => rfl
  | most + 1, n, [] => by
      cases v with
      | nil => rfl
      | cons c v => simp [leadingNumber, hv c rfl]
  | most + 1, n, c :: u => by
      simp only [List.cons_append, leadingNumber]
      split
      · exact leadingNumber_append hv most _ u
      · rfl

/-- As many digits as the text has characters are all that there are. -/
theorem leadingNumber_length : ∀ (most n : Nat) (cs : List Char), cs.length ≤ most →
    leadingNumber base isDigit most n cs = leadingNumber base isDigit cs.length n cs
  | 0, _, [], _ => rfl
  | most + 1, _, [], _ => rfl
  | most + 1, n, c :: cs, h => by
      simp only [List.length_cons, leadingNumber]
      split
      · exact leadingNumber_length most _ cs (by simpa using h)
      · rfl

end Numbers

theorem leadingDecimal_append {v : List Char} (hv : ∀ c, v.head? = some c → c.isDigit = false)
    (u : List Char) :
    leadingDecimal (u ++ v) = ((leadingDecimal u).1, (leadingDecimal u).2 ++ v) := by
  unfold leadingDecimal
  rw [leadingNumber_append hv, leadingNumber_length (u ++ v).length 0 u (by simp)]

/-! ## 2. Repetitions -/

section Repetitions

variable {v : List Char}

/-- The characters that a text can stop with. -/
theorem stops_cases (hv : Stops v) {c : Char} (hc : v.head? = some c) :
    c = '[' ∨ c = '(' ∨ c = '\\' ∨ c = ')' ∨ c = ']' ∨ c = '|' := by
  have h := hv c hc
  simp only [isBare, Bool.and_eq_false_iff, bne_eq_false_iff_eq, or_assoc] at h
  exact h

/-- A text that stops begins with no other character. -/
theorem stops_ne (hv : Stops v) {c : Char}
    (hc : ['[', '(', '\\', ')', ']', '|'].contains c = false) (w : List Char) : v ≠ c :: w := by
  rintro rfl
  rcases stops_cases hv rfl with rfl | rfl | rfl | rfl | rfl | rfl <;> cases hc

theorem stops_no_digit (hv : Stops v) : ∀ c, v.head? = some c → c.isDigit = false := by
  intro c hc
  rcases stops_cases hv hc with rfl | rfl | rfl | rfl | rfl | rfl <;> decide

theorem markedRepeat_append (hv : Stops v) (low : Nat) (high : Option Nat) (u : List Char) :
    markedRepeat low high (u ++ v) =
      ((markedRepeat low high u).1, (markedRepeat low high u).2 ++ v) := by
  cases u with
  | nil =>
    have h1 := stops_ne hv (c := '?') (by decide)
    have h2 := stops_ne hv (c := '+') (by decide)
    simp only [List.nil_append]
    unfold markedRepeat
    split
    · exact absurd rfl (h1 _)
    · exact absurd rfl (h2 _)
    · rfl
  | cons c u =>
    by_cases h1 : c = '?'
    · subst h1; rfl
    · by_cases h2 : c = '+'
      · subst h2; rfl
      · simp [markedRepeat, h1, h2]

theorem readBounds_append (hv : Stops v) (u : List Char) :
    readBounds (u ++ v) =
      (readBounds u).map (Option.map fun r => (r.1, r.2.1, r.2.2.1, r.2.2.2 ++ v)) := by
  have hcomma := stops_ne hv (c := ',') (by decide)
  have hclose := stops_ne hv (c := '\x7d') (by decide)
  have hl : ∀ w u : List Char, ((w ++ v).length == (u ++ v).length) = (w.length == u.length) := by
    intro w u
    rw [Bool.eq_iff_iff]
    simp only [List.length_append, beq_iff_eq]
    omega
  unfold readBounds
  rw [leadingDecimal_append (stops_no_digit hv)]
  generalize leadingDecimal u = r
  obtain ⟨low, w⟩ := r
  simp only [hl]
  cases checkRounds low with
  | error e => rfl
  | ok _ =>
    cases w with
    | nil =>
      simp only [List.nil_append]
      rfl
    | cons c w =>
      by_cases h1 : c = ','
      · subst h1
        simp only [List.cons_append]
        rw [leadingDecimal_append (stops_no_digit hv)]
        generalize leadingDecimal w = r
        obtain ⟨high, x⟩ := r
        simp only [hl]
        cases checkRounds high with
        | error e => rfl
        | ok _ =>
          cases x with
          | nil =>
            simp only [List.nil_append]
            rfl
          | cons d x =>
            by_cases h2 : d = '\x7d'
            · subst h2
              simp only [List.cons_append]
              split
              · split <;> rfl
              · rfl
            · simp [h2]
              rfl
      · by_cases h2 : c = '\x7d'
        · subst h2
          simp only [List.cons_append]
          split <;> rfl
        · simp [h1, h2]
          rfl

/-- A repetition with bounds: a question mark after it makes it lazy. -/
def lazyRepeat (low : Nat) (high : Option Nat) : List Char → Repeat × List Char
  | '?' :: cs => (⟨low, high, true, false⟩, cs)
  | cs => (⟨low, high, false, false⟩, cs)

theorem lazyRepeat_of_ne (low : Nat) (high : Option Nat) {cs : List Char}
    (h : ∀ w, cs ≠ '?' :: w) : lazyRepeat low high cs = (⟨low, high, false, false⟩, cs) := by
  unfold lazyRepeat
  split
  · exact absurd rfl (h _)
  · rfl

/-- What is read after the bounds of a repetition. -/
def boundedRepeat : Nat × Option Nat × Bool × List Char → Repeat × List Char
  | (low, some high, exact, after) =>
    if high < low then (⟨high, some low, false, true⟩, after)
    else if exact then (⟨low, some high, false, false⟩, after)
    else lazyRepeat low (some high) after
  | (low, none, _, after) => lazyRepeat low none after

/-- A repetition in braces is its bounds, and what is read after them. -/
theorem readRepeat_brace (cs : List Char) :
    readRepeat ('\x7b' :: cs) = (readBounds cs).map (Option.map boundedRepeat) := by
  rw [readRepeat]
  cases readBounds cs with
  | error e => rfl
  | ok r =>
    match r with
    | none => rfl
    | some (low, none, exact, after) =>
      simp only [bind, Except.bind, Except.map, Option.map, boundedRepeat]
      split
      · rfl
      · rename_i hne
        rw [lazyRepeat_of_ne low none hne]
        rfl
    | some (low, some high, exact, after) =>
      simp only [bind, Except.bind, Except.map, Option.map, boundedRepeat]
      by_cases hlow : high < low
      · rw [if_pos hlow, if_pos hlow]
        rfl
      · rw [if_neg hlow, if_neg hlow]
        cases exact with
        | true => rfl
        | false =>
          simp only [Bool.false_eq_true, if_false]
          split
          · rfl
          · rename_i hne
            rw [lazyRepeat_of_ne low (some high) fun w => hne w rfl]
            rfl

theorem lazyRepeat_append (hv : Stops v) (low : Nat) (high : Option Nat) (u : List Char) :
    lazyRepeat low high (u ++ v) =
      ((lazyRepeat low high u).1, (lazyRepeat low high u).2 ++ v) := by
  cases u with
  | nil =>
    rw [List.nil_append, lazyRepeat_of_ne low high (stops_ne hv (by decide))]
    rfl
  | cons c u =>
    by_cases hlazy : c = '?'
    · subst hlazy; rfl
    · simp [lazyRepeat, hlazy]

theorem boundedRepeat_append (hv : Stops v) (low : Nat) (high : Option Nat) (exact : Bool)
    (u : List Char) : boundedRepeat (low, high, exact, u ++ v) =
      ((boundedRepeat (low, high, exact, u)).1, (boundedRepeat (low, high, exact, u)).2 ++ v) := by
  cases high with
  | none => exact lazyRepeat_append hv low none u
  | some high =>
    simp only [boundedRepeat]
    split
    · rfl
    · split
      · rfl
      · exact lazyRepeat_append hv low (some high) u

/-- **A repetition is written with plain characters only.** -/
theorem readRepeat_append (hv : Stops v) (u : List Char) :
    readRepeat (u ++ v) = (readRepeat u).map (Option.map fun r => (r.1, r.2 ++ v)) := by
  cases u with
  | nil =>
    have h1 := stops_ne hv (c := '*') (by decide)
    have h2 := stops_ne hv (c := '+') (by decide)
    have h3 := stops_ne hv (c := '?') (by decide)
    have h4 := stops_ne hv (c := '\x7b') (by decide)
    rw [List.nil_append]
    unfold readRepeat
    split
    · exact absurd rfl (h1 _)
    · exact absurd rfl (h2 _)
    · exact absurd rfl (h3 _)
    · exact absurd rfl (h4 _)
    · rfl
  | cons c u =>
    rw [List.cons_append]
    by_cases h1 : c = '*'
    · subst h1
      simp only [readRepeat, markedRepeat_append hv]
      rfl
    by_cases h2 : c = '+'
    · subst h2
      simp only [readRepeat, markedRepeat_append hv]
      rfl
    by_cases h3 : c = '?'
    · subst h3
      simp only [readRepeat, markedRepeat_append hv]
      rfl
    by_cases h4 : c = '\x7b'
    · subst h4
      rw [readRepeat_brace, readRepeat_brace, readBounds_append hv]
      match readBounds u with
      | .error e => rfl
      | .ok none => rfl
      | .ok (some (low, high, exact, after)) =>
        simp only [Except.map, Option.map, boundedRepeat_append hv]
    · have hn : ∀ w, readRepeat (c :: w) = .ok none := by
        intro w
        simp [readRepeat, h1, h2, h3, h4]
      rw [hn, hn]
      rfl

theorem suffix_markedRepeat {low : Nat} {high : Option Nat} {cs : List Char} {r : Repeat}
    {after : List Char} (h : Except.ok (some (markedRepeat low high cs)) =
      (Except.ok (some (r, after)) : Except Fault _)) : after <:+ cs := by
  simp only [Except.ok.injEq, Option.some.injEq] at h
  unfold markedRepeat at h
  split at h <;> cases h
  · exact List.suffix_cons _ _
  · exact List.suffix_cons _ _
  · exact List.suffix_refl _

theorem suffix_leadingNumber {base : Nat} {isDigit : Char → Bool} :
    ∀ (most n : Nat) (cs : List Char), (leadingNumber base isDigit most n cs).2 <:+ cs
  | 0, _, _ => List.suffix_refl _
  | _ + 1, _, [] => List.suffix_refl _
  | most + 1, n, c :: cs => by
      simp only [leadingNumber]
      split
      · exact (suffix_leadingNumber most _ cs).trans (List.suffix_cons c cs)
      · exact List.suffix_refl _

theorem suffix_readBounds {cs : List Char} {low : Nat} {high : Option Nat} {exact : Bool}
    {after : List Char} (h : readBounds cs = .ok (some (low, high, exact, after))) :
    after <:+ cs := by
  unfold readBounds at h
  have hw : (leadingDecimal cs).2 <:+ cs := suffix_leadingNumber _ _ cs
  generalize leadingDecimal cs = r at h hw
  obtain ⟨n, w⟩ := r
  simp only [bind, Except.bind, pure, Except.pure] at h
  split at h
  · cases h
  split at h
  · rename_i more
    have hx : (leadingDecimal more).2 <:+ more := suffix_leadingNumber _ _ more
    generalize leadingDecimal more = r at h hx
    obtain ⟨m, x⟩ := r
    have hmore := (List.suffix_cons ',' more).trans hw
    simp only at h
    split at h
    · cases h
    split at h
    · rename_i after'
      have ha : after' <:+ cs := ((List.suffix_cons _ after').trans hx).trans hmore
      split at h
      · split at h
        · cases h
        · cases h; exact ha
      · cases h; exact ha
    · cases h
  · rename_i after'
    split at h
    · cases h
    · cases h; exact (List.suffix_cons _ _).trans hw
  · cases h

theorem suffix_lazyRepeat (low : Nat) (high : Option Nat) (cs : List Char) :
    (lazyRepeat low high cs).2 <:+ cs := by
  unfold lazyRepeat
  split
  · exact List.suffix_cons _ _
  · exact List.suffix_refl _

theorem suffix_boundedRepeat (low : Nat) (high : Option Nat) (exact : Bool) (cs : List Char) :
    (boundedRepeat (low, high, exact, cs)).2 <:+ cs := by
  cases high with
  | none => exact suffix_lazyRepeat low none cs
  | some high =>
    simp only [boundedRepeat]
    split
    · exact List.suffix_refl _
    · split
      · exact List.suffix_refl _
      · exact suffix_lazyRepeat low (some high) cs

/-- A repetition takes at least one character. -/
theorem tail_readRepeat {cs : List Char} {r : Repeat} {after : List Char}
    (h : readRepeat cs = .ok (some (r, after))) : ∃ c w, cs = c :: w ∧ after <:+ w := by
  unfold readRepeat at h
  split at h
  · exact ⟨_, _, rfl, suffix_markedRepeat h⟩
  · exact ⟨_, _, rfl, suffix_markedRepeat h⟩
  · exact ⟨_, _, rfl, suffix_markedRepeat h⟩
  · rename_i cs
    have hbounds := readRepeat_brace cs
    rw [readRepeat, h] at hbounds
    refine ⟨_, cs, rfl, ?_⟩
    match hb : readBounds cs with
    | .error e => rw [hb] at hbounds; cases hbounds
    | .ok none => rw [hb] at hbounds; cases hbounds
    | .ok (some (low, high, exact, w)) =>
      rw [hb] at hbounds
      have hafter : after = (boundedRepeat (low, high, exact, w)).2 :=
        congrArg Prod.snd (Option.some.inj (Except.ok.inj hbounds))
      rw [hafter]
      exact (suffix_boundedRepeat low high exact w).trans (suffix_readBounds hb)
  · cases h

theorem suffix_readRepeat {cs : List Char} {r : Repeat} {after : List Char}
    (h : readRepeat cs = .ok (some (r, after))) : after <:+ cs := by
  obtain ⟨c, w, rfl, hw⟩ := tail_readRepeat h
  exact hw.trans (List.suffix_cons c w)

theorem length_readRepeat {cs : List Char} {r : Repeat} {after : List Char}
    (h : readRepeat cs = .ok (some (r, after))) : after.length + 1 ≤ cs.length := by
  obtain ⟨c, w, rfl, hw⟩ := tail_readRepeat h
  exact Nat.succ_le_succ hw.length_le

end Repetitions

/-! ## 3. A pattern in a longer one -/

/-- Where a pattern stands in a longer one. -/
structure Setting where
  /-- How many groups are opened before it. -/
  offset : Nat
  /-- What follows it: nothing, the parenthesis that closes the group around it, or the bar before
      another alternative. -/
  tail : List Char
  /-- The groups around it that are open. -/
  outer : List Nat
  tail_stops : ∀ c, tail.head? = some c → c = ')' ∨ c = '|'
  outer_le : ∀ n ∈ outer, n ≤ offset

/-- Whether the alternatives of a pattern end with it there. -/
def Setting.Closes (C : Setting) : Prop := C.tail.head? ≠ some '|'

/-- A pattern of its own. -/
def Setting.alone : Setting := ⟨0, [], [], by simp, by simp⟩

namespace Setting

open Pattern (renumbered renumbered_stretch head?_renumbered exists_stretch)

variable (C : Setting)

/-- A text there: with its references moved, and what follows. -/
def text (cs : List Char) : List Char := renumbered C.offset cs ++ C.tail

theorem text_stretch {u : List Char} (hu : ∀ c ∈ u, isBare c = true) (v : List Char) :
    C.text (u ++ v) = u ++ C.text v := by
  rw [text, renumbered_stretch _ hu, List.append_assoc, text]

theorem head?_text_cons (c : Char) (cs : List Char) : (C.text (c :: cs)).head? = some c := by
  rw [text, List.head?_append, head?_renumbered]
  rfl

theorem head?_text_nil (c : Char) (h : (C.text []).head? = some c) : c = ')' ∨ c = '|' :=
  C.tail_stops c h

theorem stops_text {v : List Char} (hv : ∀ c, v.head? = some c → isBare c = false) :
    Stops v ∧ Stops (C.text v) := by
  refine ⟨fun c hc => .inl (hv c hc), fun c hc => ?_⟩
  cases v with
  | nil => exact .inr ((C.head?_text_nil c hc).imp_right .inr)
  | cons d v =>
    rw [head?_text_cons] at hc
    exact .inl (hv c hc)

/-- What is read from the plain characters at the front of a text is read there as well. -/
theorem read_text {α : Type} {f : List Char → Except Fault (Option (α × List Char))}
    (happ : ∀ u v, Stops v → f (u ++ v) = (f u).map (Option.map fun r => (r.1, r.2 ++ v)))
    (hsuf : ∀ u a w, f u = .ok (some (a, w)) → w <:+ u) (cs : List Char) :
    f (C.text cs) = (f cs).map (Option.map fun r => (r.1, C.text r.2)) := by
  obtain ⟨u, v, rfl, hu, hv⟩ := exists_stretch cs
  obtain ⟨hs, hs'⟩ := C.stops_text hv
  rw [text_stretch C hu, happ u v hs, happ u _ hs']
  cases hf : f u with
  | error e => rfl
  | ok r =>
    cases r with
    | none => rfl
    | some r =>
      obtain ⟨a, w⟩ := r
      have hw := hsuf u a w hf
      simp only [Except.map, Option.map]
      rw [text_stretch C fun c hc => hu c (hw.subset hc)]

theorem readRepeat_text (cs : List Char) :
    readRepeat (C.text cs) = (readRepeat cs).map (Option.map fun r => (r.1, C.text r.2)) :=
  C.read_text (fun u _ hv => readRepeat_append hv u) (fun _ _ _ h => suffix_readRepeat h) cs

end Setting

end Highlight.Regex
