import Highlight.Proofs.Regex.Sweep
import Highlight.Proofs.Regex.Grammar

/-!
# What a reader passes

Whatever a reader takes from the front of a pattern, everything that is opened in it is closed in it
as well. So the reader ends where the pattern seems to end when it is only looked over.

* `Skips`, `Crosses`, `Passes` -- what is left behind ordinary characters, behind pieces without
  groups, behind pieces with so many;
* `skips_readRepeat`, `skips_readName`, `skips_readReferred` -- what is written in ordinary characters;
* `crosses_readEscape`, `crosses_readBytes` -- what is written with backslashes;
* `leads_token`, `encloses` -- **a class ends where it seems to end**.
-/

namespace Highlight.Regex

open Pattern

/-! ## 1. What is left -/

/-- What is left behind ordinary characters. -/
def Skips (cs after : List Char) : Prop := ∃ u, cs = u ++ after ∧ ∀ c ∈ u, isOrdinary c = true

/-- What is left where everything that has been opened is closed again, and no group is numbered. -/
def Crosses (spot : Spot) (cs after : List Char) : Prop := ∀ depth groups,
  sweep ⟨spot, .none, depth, groups⟩ cs = sweep ⟨spot, .none, depth, groups⟩ after

/-- What is left in a row where `n` groups have been numbered, and everything that has been opened is
    closed again. -/
def Passes (n : Nat) (cs after : List Char) : Prop := ∀ depth groups,
  sweep ⟨.row, .none, depth, groups⟩ cs = sweep ⟨.row, .none, depth, groups + n⟩ after

section Left

variable {spot : Spot} {a b c : List Char} {m n : Nat}

theorem Skips.refl (cs : List Char) : Skips cs cs := ⟨[], rfl, fun _ h => absurd h List.not_mem_nil⟩

theorem Skips.trans (h : Skips a b) (h' : Skips b c) : Skips a c := by
  obtain ⟨u, rfl, hu⟩ := h
  obtain ⟨v, rfl, hv⟩ := h'
  refine ⟨u ++ v, (List.append_assoc u v c).symm, fun e he => ?_⟩
  exact (List.mem_append.mp he).elim (hu e) (hv e)

theorem skips_cons {d : Char} (hd : isOrdinary d = true) (cs : List Char) : Skips (d :: cs) cs :=
  ⟨[d], rfl, fun _ he => List.mem_singleton.mp he ▸ hd⟩

theorem Crosses.refl (spot : Spot) (cs : List Char) : Crosses spot cs cs := fun _ _ => rfl

theorem Crosses.trans (h : Crosses spot a b) (h' : Crosses spot b c) : Crosses spot a c :=
  fun depth groups => (h depth groups).trans (h' depth groups)

theorem Skips.crosses (h : Skips a b) (hs : spot.IsBase) : Crosses spot a b := by
  obtain ⟨u, rfl, hu⟩ := h
  exact fun depth groups => sweep_append (sweep_ordinary rfl hs hu) b

theorem Crosses.passes (h : Crosses .row a b) : Passes 0 a b := h

theorem Skips.passes (h : Skips a b) : Passes 0 a b := (h.crosses isBase_row).passes

theorem Passes.refl (cs : List Char) : Passes 0 cs cs := fun _ _ => rfl

theorem Passes.trans (h : Passes m a b) (h' : Passes n b c) : Passes (m + n) a c := by
  intro depth groups
  rw [h depth groups, h' depth (groups + m), Nat.add_assoc]

end Left

/-! ## 2. Ordinary characters -/

section Ordinary

theorem isOrdinary_of {p : Char → Bool} (hp : ['\\', '(', ')', '[', ']', '|'].all (!p ·) = true)
    {c : Char} (hc : p c = true) : isOrdinary c = true := by
  by_contra h
  rw [Bool.not_eq_true, isOrdinary, Bool.not_eq_false', List.contains_iff_mem] at h
  have hnot := List.all_eq_true.mp hp c h
  rw [hc] at hnot
  cases hnot

theorem isOrdinary_of_isWord {c : Char} (hc : Unicode.isWord c = true) : isOrdinary c = true :=
  isOrdinary_of (p := Unicode.isWord) (by decide +kernel) hc

theorem isOrdinary_of_isHexDigit {c : Char} (hc : Unicode.isHexDigit c = true) : isOrdinary c = true :=
  isOrdinary_of (p := Unicode.isHexDigit) (by decide) hc

theorem isOrdinary_of_isOctalDigit {c : Char} (hc : isOctalDigit c = true) : isOrdinary c = true :=
  isOrdinary_of (p := isOctalDigit) (by decide) hc

/-- The digits of a number. -/
theorem skips_leadingNumber {base : Nat} {isDigit : Char → Bool}
    (h : ∀ c, isDigit c = true → isOrdinary c = true) :
    ∀ (most n : Nat) (cs : List Char), Skips cs (leadingNumber base isDigit most n cs).2
  | 0, _, cs => .refl cs
  | _ + 1, _, [] => .refl []
  | most + 1, n, c :: cs => by
      rw [leadingNumber]
      split
      · rename_i hc
        exact (skips_cons (h c hc) cs).trans (skips_leadingNumber h most _ cs)
      · exact .refl _

theorem skips_leadingDecimal (cs : List Char) : Skips cs (leadingDecimal cs).2 :=
  skips_leadingNumber (fun _ h => isOrdinary_of_isDigit h) _ _ cs

/-- What stops at other characters reads only ordinary ones. -/
theorem skips_read {α : Type} {f : List Char → Except Fault (Option (α × List Char))}
    (happ : ∀ u v, Stops v → f (u ++ v) = (f u).map (Option.map fun r => (r.1, r.2 ++ v)))
    (hsuf : ∀ u a w, f u = .ok (some (a, w)) → w <:+ u) {cs after : List Char} {a : α}
    (h : f cs = .ok (some (a, after))) : Skips cs after := by
  have hstop : Stops (cs.dropWhile isOrdinary) := by
    intro c hc
    have hnot := List.head?_dropWhile_not isOrdinary cs
    rw [hc] at hnot
    have hnot : isOrdinary c = false := by simpa using hnot
    rw [isOrdinary, Bool.not_eq_false', List.contains_iff_mem] at hnot
    simp only [List.mem_cons, List.not_mem_nil, or_false] at hnot
    rcases hnot with rfl | rfl | rfl | rfl | rfl | rfl <;> decide
  rw [← List.takeWhile_append_dropWhile (p := isOrdinary) (l := cs)] at h ⊢
  rw [happ _ _ hstop] at h
  cases hfu : f (cs.takeWhile isOrdinary) with
  | error e => rw [hfu] at h; cases h
  | ok r =>
    rw [hfu] at h
    cases r with
    | none => cases h
    | some r =>
      obtain ⟨b, w⟩ := r
      cases h
      obtain ⟨x, hx⟩ := hsuf _ _ _ hfu
      refine ⟨x, by rw [← List.append_assoc, hx], fun c hc => ?_⟩
      exact List.all_eq_true.mp List.all_takeWhile c (hx ▸ List.mem_append_left w hc)

theorem skips_readRepeat {cs after : List Char} {r : Repeat}
    (h : readRepeat cs = .ok (some (r, after))) : Skips cs after :=
  skips_read (fun u _ hv => readRepeat_append hv u) (fun _ _ _ h => suffix_readRepeat h) h

theorem skips_readBraced {cs after : List Char} {c : Char}
    (h : readBraced cs = .ok (some (c, after))) : Skips cs after :=
  skips_read (fun u _ hv => readBraced_append hv u) (fun _ _ _ h => suffix_readBraced h) h

theorem skips_readProperty {negated : Bool} {cs after : List Char} {s : CharSet}
    (h : readProperty negated cs = .ok (s, after)) : Skips cs after := by
  obtain ⟨name, rfl, hname, -⟩ := readProperty_eq_ok h
  refine ⟨name, rfl, fun c hc => ?_⟩
  obtain ⟨hbare, hbracket, hclose, hbar⟩ := hname c hc
  simp only [isBare, Bool.and_eq_true, bne_iff_ne, ne_eq] at hbare
  simp [isOrdinary, hbare, hbracket, hclose, hbar]

theorem append_nameSpan (isEnd : Char → Bool) : ∀ cs : List Char,
    (nameSpan isEnd cs).1 ++ (nameSpan isEnd cs).2 = cs
  | [] => rfl
  | c :: cs => by
      rw [nameSpan]
      split
      · rfl
      · exact congrArg (c :: ·) (append_nameSpan isEnd cs)

theorem head?_nameSpan (isEnd : Char → Bool) : ∀ (cs : List Char) (c : Char),
    (nameSpan isEnd cs).2.head? = some c → isEnd c = true
  | [], _, h => nomatch h
  | d :: cs, c, h => by
      rw [nameSpan] at h
      split at h
      · rename_i hd
        cases h
        exact hd
      · exact head?_nameSpan isEnd cs c h

/-- The name of a group, and the character that ends it. -/
theorem skips_readName {close : Char} (hclose : isOrdinary close = true) {cs name after : List Char}
    (h : readName close cs = .ok (name, after)) : Skips cs after := by
  unfold readName at h
  split at h
  · cases h
  rename_i first more
  split at h
  · cases h
  have happ := append_nameSpan (endsName close) more
  generalize nameSpan (endsName close) more = r at h happ
  obtain ⟨tail, w⟩ := r
  simp only at h
  split at h
  · cases h
  split at h
  · cases h
  split at h
  · cases h
  · rename_i c rest
    split at h
    · cases h
    rename_i hc
    split at h
    · rename_i hall
      cases h
      have hc : c = close := by simpa using hc
      subst hc
      refine ⟨first :: tail ++ [c], by simp [← happ], fun d hd => ?_⟩
      rcases List.mem_append.mp hd with hd | hd
      · exact isOrdinary_of_isWord (List.all_eq_true.mp hall d hd)
      · exact List.mem_singleton.mp hd ▸ hclose
    · cases h

/-- What a reference is written with that has nothing wrong in it. -/
theorem isOrdinary_of_referredFault {name : List Char} (h : referredFault? name = none) :
    ∀ c ∈ name, isOrdinary c = true := by
  unfold referredFault? at h
  split at h
  · exact fun c hc => absurd hc List.not_mem_nil
  rename_i c cs
  have hall : ∀ {p : Char → Bool}, (∀ c, p c = true → isOrdinary c = true) → isOrdinary c = true →
      cs.all p = true → ∀ d ∈ c :: cs, isOrdinary d = true := by
    intro p hp hc hcs d hd
    rcases List.mem_cons.mp hd with rfl | hd
    · exact hc
    · exact hp d (List.all_eq_true.mp hcs d hd)
  split at h
  · rename_i hc
    split at h
    · rename_i hcs
      exact hall (fun _ => isOrdinary_of_isDigit) (isOrdinary_of_isDigit hc) hcs
    · cases h
  split at h
  · rename_i hsign
    have hc : isOrdinary c = true := by
      simp only [Bool.or_eq_true, beq_iff_eq] at hsign
      rcases hsign with rfl | rfl <;> decide
    split at h
    · cases h
    · rename_i hcs
      simp only [Bool.or_eq_true, Bool.not_eq_true', not_or, Bool.not_eq_false] at hcs
      exact hall (fun _ => isOrdinary_of_isDigit) hc hcs.2
  split at h
  · rename_i hcs
    rw [List.all_cons, Bool.and_eq_true] at hcs
    exact hall (fun _ => isOrdinary_of_isWord) (isOrdinary_of_isWord hcs.1) hcs.2
  · cases h

theorem reading_lift_ok {α β : Type} {x : Except Fault α} {f : α → Reading β} {s : Progress}
    {r : β × Progress} (h : ((liftM x : Reading α) >>= f) s = .ok r) :
    ∃ a, x = .ok a ∧ f a s = .ok r := by
  obtain ⟨a, s', ha, hf⟩ := reading_bind_ok h
  obtain ⟨hx, hs⟩ := lift_ok ha
  cases hs
  exact ⟨a, hx, hf⟩

/-- What is thrown under a condition is not thrown where there is an answer. -/
theorem ok_of_unless {α : Type} {c : Prop} [Decidable c] {e : Fault} {f : PUnit → Except Fault α} {a : α}
    (h : (if c then throw e >>= f else f ⟨⟩) = .ok a) : ¬ c ∧ f ⟨⟩ = .ok a := by
  split at h
  · cases h
  · exact ⟨‹_›, h⟩

theorem exists_of_map {α β : Type} {x : Except Fault α} {f : α → β} {b : β}
    (h : x.map f = .ok b) : ∃ a, x = .ok a ∧ f a = b := by
  cases x with
  | error e => cases h
  | ok a => cases h; exact ⟨a, rfl, rfl⟩

/-- What ends a reference, apart from a parenthesis. -/
theorem isOrdinary_of_endsReferred {close c : Char} (hclose : isOrdinary close = true) (hparen : c ≠ ')')
    (h : endsReferred close c = true) : isOrdinary c = true := by
  simp only [endsReferred, endsName, Bool.or_eq_true, beq_iff_eq] at h
  rcases h with ((rfl | rfl) | rfl) | rfl
  · exact hclose
  · exact absurd rfl hparen
  · decide
  · decide

/-- What a reference is written with, and the character that ends it. -/
theorem skips_readReferred {close : Char} (hclose : isOrdinary close = true) {cs after : List Char}
    {referred : Referred} {isDeeper : Bool}
    (h : readReferred close cs = .ok (referred, isDeeper, after)) : Skips cs after := by
  unfold readReferred at h
  cases cs with
  | nil => cases h
  | cons first more =>
    dsimp only at h
    obtain ⟨-, h⟩ := ok_of_unless h
    have happ := append_nameSpan (endsReferred close) more
    have hend := head?_nameSpan (endsReferred close) more
    generalize nameSpan (endsReferred close) more = r at h happ hend
    obtain ⟨tail, w⟩ := r
    subst happ
    cases w with
    | nil =>
      dsimp only at h
      obtain ⟨-, h⟩ := ok_of_unless h
      split at h <;> cases h
    | cons c rest =>
      dsimp only at h
      split at h
      · cases h
      rename_i hfault
      have hname : Skips (first :: (tail ++ c :: rest)) (c :: rest) :=
        ⟨first :: tail, rfl, isOrdinary_of_referredFault hfault⟩
      split at h
      · rename_i hc
        have hc : c = close := by simpa using hc
        obtain ⟨r, -, h⟩ := exists_of_bind h
        obtain ⟨-, -, h⟩ := exists_of_bind h
        cases h
        exact hname.trans (skips_cons (hc ▸ hclose) _)
      · rename_i hc
        split at h
        · cases h
        rename_i hparen
        obtain ⟨-, h⟩ := ok_of_unless h
        have hdepth := skips_leadingDecimal rest
        generalize leadingDecimal rest = x at h hdepth
        obtain ⟨depth, w⟩ := x
        dsimp only at h
        obtain ⟨-, h⟩ := ok_of_unless h
        obtain ⟨-, h⟩ := ok_of_unless h
        cases w with
        | nil => cases h
        | cons d w =>
          dsimp only at h
          obtain ⟨hd, h⟩ := ok_of_unless h
          obtain ⟨r, -, h⟩ := exists_of_bind h
          obtain ⟨-, -, h⟩ := exists_of_bind h
          cases h
          have hd : d = close := by simpa using hd
          have hsign := isOrdinary_of_endsReferred hclose (by simpa using hparen) (hend c rfl)
          exact hname.trans ((skips_cons hsign rest).trans
            (hdepth.trans (skips_cons (hd ▸ hclose) _)))

end Ordinary

/-! ## 3. Escapes -/

section Escapes

variable {spot : Spot} (hs : spot.IsBase) {c : Char} {cs after : List Char}

include hs

theorem sweep_backslash (depth groups : Nat) (cs : List Char) :
    sweep ⟨spot, .none, depth, groups⟩ ('\\' :: cs) = sweep ⟨spot, .begun, depth, groups⟩ cs := by
  cases spot <;> first | rfl | exact hs.elim

/-- A backslash, and a character that is no letter of control characters. -/
theorem crosses_pair (hc : c ≠ 'c') (cs : List Char) : Crosses spot ('\\' :: c :: cs) cs := by
  intro depth groups
  rw [sweep_backslash hs, sweep_next (next_begun_ne rfl hc)]

theorem crosses_readByte {b : Nat} {f : ByteForm} (h : readByte cs = .ok (some (b, f, after))) :
    Crosses spot cs after := by
  unfold readByte at h
  split at h
  · rename_i c cs
    obtain ⟨r, -, h⟩ := exists_of_bind h
    cases r with
    | some r => cases h
    | none =>
      cases h
      exact (crosses_pair hs (by decide) _).trans
        ((skips_leadingNumber (fun _ => isOrdinary_of_isHexDigit) 2 0 (c :: cs)).crosses hs)
  · rename_i c cs _
    split at h
    · rename_i hc
      have hne : c ≠ 'c' := by
        rintro rfl
        cases hc
      have hskips : Skips cs (leadingNumber 8 isOctalDigit 2 (0 * 8 + hexValue c) cs).2 :=
        skips_leadingNumber (fun _ => isOrdinary_of_isOctalDigit) 2 _ cs
      simp only [leadingNumber, if_pos hc] at h
      split at h
      · cases h
      · cases h
        exact (crosses_pair hs hne cs).trans (hskips.crosses hs)
    · cases h
  · cases h

theorem crosses_furtherBytes {form : Option ByteForm} : ∀ {n : Nat} {cs after : List Char}
    {bs : List Nat}, furtherBytes form n cs = .ok (bs, after) → Crosses spot cs after
  | 0, cs, _, _, h => by
      cases h
      exact .refl spot cs
  | n + 1, cs, after, bs, h => by
      unfold furtherBytes at h
      obtain ⟨r, hr, h⟩ := exists_of_bind h
      cases r with
      | none => cases h
      | some r =>
        obtain ⟨b, f, mid⟩ := r
        dsimp only at h
        split at h
        · obtain ⟨⟨bs, w⟩, hbs, h⟩ := exists_of_bind h
          cases h
          exact (crosses_readByte hs hr).trans (crosses_furtherBytes hbs)
        · cases h

theorem crosses_readBytes {form : Option ByteForm} {b : Nat} {w : Written}
    (h : readBytes form b cs = .ok (w, after)) : Crosses spot cs after := by
  unfold readBytes at h
  obtain ⟨⟨more, v⟩, hmore, h⟩ := exists_of_bind h
  dsimp only at h
  obtain ⟨-, h⟩ := ok_of_unless h
  cases h
  exact crosses_furtherBytes hs hmore

theorem crosses_writtenAt {w : Written} (h : writtenAt cs = .ok (w, after)) :
    Crosses spot cs after := by
  unfold writtenAt at h
  obtain ⟨r, hr, h⟩ := exists_of_bind h
  cases r with
  | none => cases h
  | some r =>
    obtain ⟨b, f, mid⟩ := r
    dsimp only at h
    obtain ⟨-, h⟩ := ok_of_unless h
    exact (crosses_readByte hs hr).trans (crosses_readBytes hs h)

variable (hcomment : spot ≠ .comment)

include hcomment

/-- What stands behind a backslash; control characters may have further ones. -/
theorem crosses_readEscape (h : readEscape cs = .ok (c, after)) : Crosses spot ('\\' :: cs) after := by
  intro depth groups
  rw [sweep_backslash hs]
  have hcontrol : ∀ cs, sweep ⟨spot, .begun, depth, groups⟩ ('c' :: cs) =
      sweep ⟨spot, .control, depth, groups⟩ cs := fun cs => by
    refine sweep_next ?_ cs
    rw [Sweep.next, if_pos ⟨rfl, hcomment⟩]
  fun_induction readEscape cs generalizing c after with
  | case1 | case2 => cases h
  | case3 cs =>
    cases h
    rw [hcontrol]
    rfl
  | case4 cs ih =>
    obtain ⟨⟨d, w⟩, hd, h⟩ := exists_of_bind h
    obtain ⟨e, -, h⟩ := exists_of_bind h
    cases h
    rw [hcontrol, ← ih hd]
    rfl
  | case5 d cs h1 h2 =>
    obtain ⟨e, -, h⟩ := exists_of_bind h
    cases h
    rw [hcontrol]
    refine sweep_next ?_ cs
    rw [Sweep.next, if_neg h2]
  | case6 d cs h1 h2 h3 h4 =>
    cases h
    refine sweep_next (next_begun_ne rfl ?_) cs
    rintro rfl
    cases cs with
    | nil => exact h1 rfl rfl
    | cons e cs => exact h4 e cs rfl rfl

/-- A letter that announces a class or a condition, a property, bytes, or a character. -/
theorem crosses_spelled {flags : Flags} {d : Char} {a : Syntax}
    (h : spelled flags d cs = .ok (a, after)) :
    Crosses spot ('\\' :: d :: cs) after ∧ a.isLeaf = true := by
  unfold spelled at h
  split at h
  · rename_i hd
    cases h
    refine ⟨crosses_pair hs ?_ cs, rfl⟩
    rintro rfl
    cases hd
  · rename_i hd
    cases h
    refine ⟨crosses_pair hs ?_ cs, rfl⟩
    rintro rfl
    cases hd
  split at h
  · obtain ⟨r, hr, h⟩ := exists_of_map h
    cases h
    exact ⟨crosses_writtenAt hs hr, isLeaf_literal flags _⟩
  split at h
  · rename_i hx
    have hx : d = 'x' := by simpa using hx
    subst hx
    obtain ⟨r, hr, h⟩ := exists_of_bind h
    cases r with
    | some r =>
      cases h
      exact ⟨(crosses_pair hs (by decide) cs).trans ((skips_readBraced hr).crosses hs),
        isLeaf_literal flags _⟩
    | none =>
      obtain ⟨r, hr, h⟩ := exists_of_map h
      cases h
      exact ⟨crosses_writtenAt hs hr, isLeaf_literal flags _⟩
  split at h
  · rename_i hp
    obtain ⟨r, hr, h⟩ := exists_of_map h
    cases h
    simp only [Bool.and_eq_true, Bool.or_eq_true, beq_iff_eq] at hp
    obtain ⟨w, rfl⟩ := List.head?_eq_some_iff.mp hp.2
    have hne : d ≠ 'c' := by
      rintro rfl
      simp at hp
    exact ⟨(crosses_pair hs hne _).trans (((skips_cons (by decide) w).trans
      (skips_readProperty hr)).crosses hs), rfl⟩
  · obtain ⟨r, hr, h⟩ := exists_of_map h
    cases h
    exact ⟨crosses_readEscape hs hcomment hr, isLeaf_literal flags _⟩

end Escapes

/-! ## 4. Classes -/

/-- Where what follows a class stands, with so many classes around it. -/
def Spot.closed (outer : Nat) : Spot := if outer = 0 then .row else .members (outer - 1)

/-- Where what follows a token of a class stands. -/
def ClassToken.behind (outer : Nat) : ClassToken → Spot
  | .close => .closed outer
  | .inner => .bracket (outer + 1) false
  | _ => .members outer

/-- What the first token of a class counts as: a bracket does not close the class at once. -/
def ClassToken.asFirst : ClassToken → ClassToken
  | .close => .value (.char ']') false
  | token => token

/-- What is left where something has been opened or closed. -/
def Leads (spot : Spot) (cs : List Char) (spot' : Spot) (after : List Char) : Prop :=
  ∀ depth groups, sweep ⟨spot, .none, depth, groups⟩ cs = sweep ⟨spot', .none, depth, groups⟩ after

section Classes

variable {outer : Nat} {spot spot' spot'' : Spot} {a b c : List Char}

theorem Leads.trans (h : Leads spot a spot' b) (h' : Leads spot' b spot'' c) :
    Leads spot a spot'' c := fun depth groups => (h depth groups).trans (h' depth groups)

theorem Crosses.leads (h : Crosses spot a b) : Leads spot a spot b := h

theorem leads_next {d : Char} (h : ∀ depth groups, (⟨spot, .none, depth, groups⟩ : Sweep).next d =
    some ⟨spot', .none, depth, groups⟩) (cs : List Char) : Leads spot (d :: cs) spot' cs :=
  fun depth groups => sweep_next (h depth groups) cs

theorem leads_close (cs : List Char) : Leads (.members outer) (']' :: cs) (.closed outer) cs :=
  leads_next (fun _ _ => rfl) cs

theorem leads_open (cs : List Char) :
    Leads (.members outer) ('[' :: cs) (.bracket (outer + 1) false) cs :=
  leads_next (fun _ _ => rfl) cs

theorem isBase_members : (Spot.members outer).IsBase := trivial

theorem behind_of_isMember {token : ClassToken} (h : token.isMember = true) :
    token.behind outer = .members outer := by
  cases token <;> first | rfl | cases h

/-- A letter behind a backslash gives a character or a set. -/
theorem crosses_escapedClassToken {token : ClassToken} {cs after : List Char}
    (h : escapedClassToken cs = .ok (token, after)) :
    token.isMember = true ∧ Crosses (.members outer) ('\\' :: cs) after := by
  cases cs with
  | nil => cases h
  | cons d cs =>
    cases hd : classEscape? d with
    | some x =>
      simp only [escapedClassToken, hd] at h
      cases h
      refine ⟨rfl, crosses_pair isBase_members ?_ _⟩
      rintro rfl
      cases hd
    | none =>
      by_cases hp : announcesProperty d cs
      · obtain ⟨hp, hopen⟩ := hp
        obtain ⟨w, rfl⟩ := List.head?_eq_some_iff.mp hopen
        rw [escapedClassToken_property hp] at h
        obtain ⟨r, hr, h⟩ := exists_of_map h
        cases h
        have hne : d ≠ 'c' := by
          rintro rfl
          simp at hp
        exact ⟨rfl, (crosses_pair isBase_members hne _).trans (((skips_cons (by decide) w).trans
          (skips_readProperty hr)).crosses isBase_members)⟩
      · rw [escapedClassToken_eq hd hp] at h
        obtain ⟨braced, hbraced, h⟩ := exists_of_bind h
        obtain ⟨byte, hbyte, h⟩ := exists_of_bind h
        cases braced with
        | some r =>
          have hx := eq_of_bracedAfter hbraced
          subst hx
          cases h
          exact ⟨rfl, (crosses_pair isBase_members (by decide) cs).trans
            ((skips_readBraced hbraced).crosses isBase_members)⟩
        | none =>
          cases byte with
          | some r =>
            obtain ⟨w, hw, h⟩ := exists_of_map h
            cases h
            exact ⟨rfl, (crosses_readByte isBase_members hbyte).trans
              (crosses_readBytes isBase_members hw)⟩
          | none =>
            obtain ⟨r, hr, h⟩ := exists_of_map h
            cases h
            exact ⟨rfl, crosses_readEscape isBase_members (fun h => by cases h) hr⟩

theorem skips_alphabetic (cs : List Char) :
    Skips cs (cs.drop (cs.takeWhile Unicode.isAlphabetic).length) := by
  refine ⟨cs.takeWhile Unicode.isAlphabetic, ?_, fun c hc => ?_⟩
  · exact (List.prefix_iff_eq_append.mp (List.takeWhile_prefix _)).symm
  · exact isOrdinary_of (p := Unicode.isAlphabetic) (by decide +kernel)
      (List.all_eq_true.mp List.all_takeWhile c hc)

/-- The name between colons, and the bracket that ends it. -/
theorem leads_nameBetweenColons {negated : Bool} {name cs after : List Char}
    (h : nameBetweenColons? cs = some (negated, name, after)) :
    Leads (.members outer) ('[' :: ':' :: cs) (.members outer) after := by
  have hname : Skips cs (':' :: ']' :: after) := by
    unfold nameBetweenColons? at h
    split at h
    rename_i negated' more hcut
    have hcs : Skips cs more := by
      split at hcut <;> cases hcut
      · exact skips_cons (by decide) _
      · exact .refl _
    dsimp only at h
    split at h
    · rename_i heq
      cases h
      rw [← heq]
      exact hcs.trans (skips_alphabetic more)
    · cases h
  have hcolons : Crosses (.members (outer + 1)) cs (']' :: after) :=
    (hname.trans (skips_cons (by decide) _)).crosses isBase_members
  exact (leads_open _).trans ((leads_next (fun _ _ => rfl) cs).trans
    (hcolons.leads.trans (leads_close after)))

/-- **A token of a class**, as it is seen when the class is only looked over. -/
theorem leads_token {token : ClassToken} {cs after : List Char}
    (h : nextClassToken cs = .ok (token, after)) :
    Leads (.members outer) cs (token.behind outer) after := by
  have hordinary : ∀ {d : Char}, isOrdinary d = true → ∀ cs, Crosses (.members outer) (d :: cs) cs :=
    fun hd cs => (skips_cons hd cs).crosses isBase_members
  unfold nextClassToken at h
  split at h
  · cases h
    exact (Crosses.refl _ _).leads
  · cases h
    exact leads_close _
  · cases h
    exact (hordinary (by decide) _).leads
  · obtain ⟨hmember, hcross⟩ := crosses_escapedClassToken h
    rw [behind_of_isMember hmember]
    exact hcross.leads
  · split at h
    · rename_i hname
      split at h
      · cases h
        exact leads_nameBetweenColons hname
      · cases h
    · cases h
      exact leads_open _
  · cases h
    exact leads_open _
  · cases h
    exact ((hordinary (by decide) _).trans (hordinary (by decide) _)).leads
  · rename_i hclose _ hback _ hopen _
    cases h
    refine fun depth groups => sweep_next ?_ _
    exact congrArg some (inMembers_other _ outer hback hopen hclose)

/-- Behind the bracket that opens a class, any other character than those that mean something there is
    as within the class. -/
theorem leads_bracket {negated : Bool} {d : Char} (hclose : d ≠ ']') (hcaret : d = '^' → negated = true)
    (cs : List Char) : Leads (.bracket outer negated) (d :: cs) (.members outer) (d :: cs) := by
  intro depth groups
  have hspot : ∀ t : Sweep, ({ t with spot := .bracket outer negated }.inMembers outer d) =
      ({ t with spot := .members outer }.inMembers outer d) := by
    intro t
    unfold Sweep.inMembers
    split <;> rfl
  have hnext : (⟨.bracket outer negated, .none, depth, groups⟩ : Sweep).next d =
      (⟨.members outer, .none, depth, groups⟩ : Sweep).next d := by
    refine (if_neg fun h => ?_).trans ((if_neg hclose).trans ?_)
    · rw [hcaret h.1] at h
      cases h.2
    · exact congrArg some (hspot ⟨.row, .none, depth, groups⟩)
  rw [sweep, sweep, hnext]
  rfl

/-- Only the bracket itself closes a class. -/
theorem bracket_of_next {d : Char} {cs after : List Char}
    (h : nextClassToken (d :: cs) = .ok (.close, after)) : d = ']' := by
  unfold nextClassToken at h
  split at h
  · cases h
  · rename_i he
    cases he
    rfl
  · cases h
  · obtain ⟨hmember, -⟩ : _ ∧ Crosses (.members 0) _ _ := crosses_escapedClassToken h
    cases hmember
  · split at h
    · split at h <;> cases h
    · cases h
  · cases h
  · cases h
  · cases h

/-- The first token of a class. -/
theorem leads_first {negated : Bool} {token : ClassToken} {cs after : List Char}
    (h : nextClassToken cs = .ok (token, after)) (hfinish : token ≠ .finish)
    (hcaret : cs.head? = some '^' → negated = true) :
    Leads (.bracket outer negated) cs (token.asFirst.behind outer) after := by
  cases cs with
  | nil => cases h; exact absurd rfl hfinish
  | cons d cs =>
    by_cases hd : d = ']'
    · subst hd
      cases h
      exact leads_next (fun _ _ => by cases negated <;> rfl) _
    · have hsame : token.asFirst = token := by
        cases token with
        | close => exact absurd (bracket_of_next h) hd
        | _ => rfl
      rw [hsame]
      exact (leads_bracket hd (fun h => hcaret (congrArg some h)) cs).trans (leads_token h)

theorem readMembers_finish {fuel depth : Nat} {pending : Pending} {acc : CharSet}
    {before : Option CharSet} {s : Progress} {r : CharSet × Progress}
    (h : readMembers fuel depth pending acc before .finish s = .ok r) : False := by
  cases fuel <;> rw [readMembers] at h <;> cases h

theorem readMembers_inner {fuel depth : Nat} {pending : Pending} {acc : CharSet}
    {before : Option CharSet} :
    readMembers (fuel + 1) depth pending acc before .inner =
      (do
        let r ← readClass fuel depth
        readMembers fuel depth .complete
          (.union (pending.settle acc) (if r.1 then .compl r.2 else r.2)) before (← classToken)) := by
  rw [readMembers]

/-- What is read of a class begins with a token, or with a caret and a token. -/
theorem readClass_ok {fuel depth : Nat} {s s' : Progress} {x : Bool × CharSet}
    (h : readClass (fuel + 1) depth s = .ok (x, s')) :
    ∃ token s₁ t, readMembers fuel (depth + 1) .start .empty none token.asFirst s₁ = .ok (t, s') ∧
      (token ≠ .value (.char '^') true ∧ classToken s = .ok (token, s₁) ∨
        ∃ s₀, classToken s = .ok (.value (.char '^') true, s₀) ∧ classToken s₀ = .ok (token, s₁)) := by
  have hd : depth < maxNesting := by
    refine Nat.lt_of_not_le fun hle => ?_
    rw [readClass_deep hle] at h
    cases h
  rw [readClass, if_neg (by omega)] at h
  obtain ⟨token, s₁, htoken, h⟩ := reading_bind_ok h
  -- Behind a caret or not, the members are read from one token on.
  have hmembers : ∀ (token : ClassToken) (s₁ : Progress) (negated : Bool),
      (match token with
        | .close => do
          unless (← rest).contains ']' do throw .classEmpty
          return (negated, ← readMembers fuel (depth + 1) .start .empty none (.value (.char ']') false))
        | token => return (negated, ← readMembers fuel (depth + 1) .start .empty none token) :
          Reading (Bool × CharSet)) s₁ = .ok (x, s') →
      ∃ t, readMembers fuel (depth + 1) .start .empty none token.asFirst s₁ = .ok (t, s') := by
    intro token s₁ negated h
    cases token with
    | close =>
      obtain ⟨cs, s₂, hcs, h⟩ := reading_bind_ok h
      cases hcs
      dsimp only at h
      split at h
      · obtain ⟨t, s₂, ht, h⟩ := reading_bind_ok h
        cases h
        exact ⟨t, ht⟩
      · cases h
    | _ =>
      obtain ⟨t, s₂, ht, h⟩ := reading_bind_ok h
      cases h
      exact ⟨t, ht⟩
  by_cases hcaret : token = .value (.char '^') true
  · subst hcaret
    obtain ⟨token, s₂, htoken', h⟩ := reading_bind_ok h
    obtain ⟨t, ht⟩ := hmembers token s₂ true (by cases token <;> exact h)
    exact ⟨token, s₂, t, ht, .inr ⟨s₁, htoken, htoken'⟩⟩
  · refine ⟨token, s₁, ?_⟩
    dsimp only at h
    split at h
    · exact absurd rfl hcaret
    · obtain ⟨t, ht⟩ := hmembers token s₁ false (by cases token <;> exact h)
      exact ⟨t, ht, .inl ⟨hcaret, htoken⟩⟩

/-- What is read of a class, as far as it is seen when it is only looked over. -/
structure Encloses (fuel : Nat) : Prop where
  cls : ∀ {depth : Nat} {s s' : Progress} {x : Bool × CharSet},
    readClass fuel depth s = .ok (x, s') → s'.groups = s.groups ∧
      ∀ outer, Leads (.bracket outer false) s.rest (.closed outer) s'.rest
  members : ∀ {depth : Nat} {pending : Pending} {acc : CharSet} {before : Option CharSet}
    {token : ClassToken} {s s' : Progress} {t : CharSet},
    readMembers fuel depth pending acc before token s = .ok (t, s') → s'.groups = s.groups ∧
      ∀ outer, Leads (token.behind outer) s.rest (.closed outer) s'.rest

/-- One token more. -/
theorem Encloses.next {fuel : Nat} (h : Encloses fuel) {depth : Nat} {pending : Pending}
    {acc : CharSet} {before : Option CharSet} {s s' : Progress} {t : CharSet}
    (hs : (classToken >>= readMembers fuel depth pending acc before) s = .ok (t, s')) :
    s'.groups = s.groups ∧ ∀ outer, Leads (.members outer) s.rest (.closed outer) s'.rest := by
  obtain ⟨token, s₁, htoken, hs⟩ := reading_bind_ok hs
  obtain ⟨cs, hnext, rfl⟩ := classToken_ok htoken
  obtain ⟨hgroups, hlead⟩ := h.members hs
  exact ⟨hgroups, fun outer => (leads_token hnext).trans (hlead outer)⟩

/-- Behind a caret. -/
theorem leads_caret {s s₀ : Progress} (h : classToken s = .ok (.value (.char '^') true, s₀)) :
    Leads (.bracket outer false) s.rest (.bracket outer true) s₀.rest := by
  obtain ⟨cs, hnext, rfl⟩ := classToken_ok h
  have hrest : s.rest = '^' :: cs := by
    cases hs : s.rest with
    | nil => rw [hs] at hnext; cases hnext
    | cons d more =>
      rw [hs] at hnext
      have hd := caret_of_next hnext
      subst hd
      cases hnext
      rfl
  rw [hrest]
  exact leads_next (fun _ _ => rfl) cs

/-- What decides about a dash is only looked at. -/
theorem eq_of_behindDash {pending : Pending} {next : ClassToken} {s s' : Progress}
    (h : behindDash pending s = .ok (next, s')) : s' = s := by
  unfold behindDash at h
  split at h
  · cases h
    rfl
  · rw [peekClassToken_eq] at h
    obtain ⟨r, -, he⟩ := exists_of_map h
    cases he
    rfl

/-- A whole class, from its members. -/
theorem Encloses.class_succ {fuel depth : Nat} (ih : Encloses fuel) {s s' : Progress}
    {x : Bool × CharSet} (h : readClass (fuel + 1) depth s = .ok (x, s')) :
    s'.groups = s.groups ∧ ∀ outer, Leads (.bracket outer false) s.rest (.closed outer) s'.rest := by
  obtain ⟨token, s₁, t, ht, hfirst⟩ := readClass_ok h
  obtain ⟨hgroups, hlead⟩ := ih.members ht
  have hfinish : token ≠ .finish := by
    rintro rfl
    exact readMembers_finish ht
  rcases hfirst with ⟨hcaret, htoken⟩ | ⟨s₀, hcaret, htoken⟩
  · obtain ⟨cs, hnext, rfl⟩ := classToken_ok htoken
    refine ⟨hgroups, fun outer => (leads_first hnext hfinish fun hd => ?_).trans (hlead outer)⟩
    obtain ⟨more, hmore⟩ := List.head?_eq_some_iff.mp hd
    rw [hmore] at hnext
    cases hnext
    exact absurd rfl hcaret
  · have hbehind : ∀ outer, Leads (.bracket outer false) s.rest (.bracket outer true) s₀.rest :=
      fun _ => leads_caret hcaret
    obtain ⟨cs, -, rfl⟩ := classToken_ok hcaret
    obtain ⟨cs', hnext, rfl⟩ := classToken_ok htoken
    refine ⟨hgroups, fun outer => (hbehind outer).trans ?_⟩
    exact (leads_first hnext hfinish fun _ => rfl).trans (hlead outer)

/-- The members from one token on. -/
theorem Encloses.members_succ {fuel depth : Nat} (ih : Encloses fuel) {pending : Pending}
    {acc : CharSet} {before : Option CharSet} {token : ClassToken} {s s' : Progress} {t : CharSet}
    (h : readMembers (fuel + 1) depth pending acc before token s = .ok (t, s')) :
    s'.groups = s.groups ∧ ∀ outer, Leads (token.behind outer) s.rest (.closed outer) s'.rest := by
  cases token with
  | finish => exact (readMembers_finish h).elim
  | close =>
    rw [readMembers_close] at h
    cases h
    exact ⟨rfl, fun outer _ _ => rfl⟩
  | value w bare =>
    rw [readMembers_value] at h
    obtain ⟨p, -, h⟩ := reading_lift_ok h
    exact ih.next h
  | set c =>
    rw [readMembers_set] at h
    obtain ⟨p, -, h⟩ := reading_lift_ok h
    exact ih.next h
  | both =>
    rw [readMembers_both] at h
    exact ih.next h
  | dash =>
    rw [readMembers_dash] at h
    obtain ⟨next, s₁, hnext, h⟩ := reading_bind_ok h
    obtain ⟨p, -, h⟩ := reading_lift_ok h
    rw [eq_of_behindDash hnext] at h
    exact ih.next h
  | inner =>
    rw [readMembers_inner] at h
    obtain ⟨r, s₁, hr, h⟩ := reading_bind_ok h
    obtain ⟨hgroups, hlead⟩ := ih.cls hr
    obtain ⟨hgroups', hlead'⟩ := ih.next h
    exact ⟨hgroups'.trans hgroups, fun outer => (hlead (outer + 1)).trans (hlead' outer)⟩

/-- **A class ends where it seems to end.** -/
theorem encloses : ∀ fuel : Nat, Encloses fuel
  | 0 =>
    { cls := fun h => by rw [readClass] at h; cases h
      members := fun h => by rw [readMembers] at h; cases h }
  | fuel + 1 =>
    { cls := fun h => (encloses fuel).class_succ h
      members := fun h => (encloses fuel).members_succ h }

end Classes

end Highlight.Regex
