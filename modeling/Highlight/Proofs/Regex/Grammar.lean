import Highlight.Proofs.Regex.Carried

/-!
# The grammar in a longer pattern

A clear pattern is read in every setting as it is on its own: the same tree, with its groups moved.

* `carries_readRepeats` -- repetitions;
* `readHead_text` -- the heads of groups;
* `readAnnounced`, `readBar` -- the parts of the grammar;
* `Carried`, `carried` -- what some steps read, and so any number of them.
-/

namespace Highlight.Regex

open Pattern

/-! ## 1. Repetitions -/

section Repeats

variable {f depth : Nat} {grouped : Bool} {a b : Syntax} {s : Progress} {r : Repeat}
  {after : List Char}

theorem readRepeats_none (hskip : skipComments s = .ok ((), s))
    (h : readRepeat s.rest = .ok none) : readRepeats f depth grouped a s = .ok (a, s) := by
  cases f with
  | zero => rfl
  | succ f =>
    rw [readRepeats, reading_bind_eq hskip, reading_bind_eq rest_eq, reading_bind_eq (lift_eq h)]
    rfl

theorem readRepeats_some (hskip : skipComments s = .ok ((), s))
    (h : readRepeat s.rest = .ok (some (r, after))) :
    readRepeats (f + 1) depth grouped a s =
      if a.isRepeatable then
        if maxNesting ≤ depth then .error .tooDeep
        else (do readRepeats f (depth + 1) false (← r.apply grouped a) : Reading Syntax)
          { s with rest := after }
      else .error .repeatTargetInvalid := by
  rw [readRepeats, reading_bind_eq hskip, reading_bind_eq rest_eq, reading_bind_eq (lift_eq h)]
  simp only
  split
  · split <;> rfl
  · rfl

end Repeats

/-- What the repetitions behind a piece make of it in every setting. -/
def Repeats (s : Progress) (a' : Syntax) (a : Syntax) (b : Setting → Syntax) (s' : Progress) :
    Prop :=
  ∃ c, b = (fun C => c.moved C.offset) ∧ c.form = a.form ∧ Alike a' c ∧ Goes s s' ∧
    s'.groups = s.groups

/-- A repetition that is read of a text on its own is read in every setting. -/
theorem readRepeats_text (C : Setting) {n depth : Nat} {grouped : Bool} {a : Syntax} {s : Progress}
    {r : Repeat} {after : List Char} (hs : Fine s)
    (h : readRepeat s.rest = .ok (some (r, after))) (hn : (C.text s.rest).length + 1 ≤ n) :
    readRepeats n depth grouped a (C.progress s) =
      if a.isRepeatable then
        if maxNesting ≤ depth then .error .tooDeep
        else (do readRepeats (n - 1) (depth + 1) false (← r.apply grouped a) : Reading Syntax)
          (C.progress { s with rest := after })
      else .error .repeatTargetInvalid := by
  have htext : readRepeat (C.progress s).rest = .ok (some (r, C.text after)) := by
    refine (C.readRepeat_text s.rest).trans ?_
    rw [h]
    rfl
  obtain ⟨f, rfl⟩ : ∃ f, n = f + 1 := ⟨n - 1, by omega⟩
  exact readRepeats_some (skipComments_eq fun w => not_comment_text C hs.clear) htext

/-- **The repetitions behind a piece are the same in every setting**, unless they stand too deep. -/
theorem carries_readRepeats : ∀ (f : Nat) {n : Setting → Nat} {s : Progress} (depth : Nat)
    (grouped : Bool) {a a' : Syntax}, Fine s → s.rest.length + 1 ≤ f →
    (∀ C, (C.text s.rest).length + 1 ≤ n C) → a'.form = a.form →
    Carries s (readRepeats f depth grouped a)
      (fun deeper C _ => readRepeats (n C) (depth + deeper) grouped (a'.moved C.offset))
      (Repeats s a') := by
  intro f
  induction f with
  | zero =>
    intro _ _ _ _ _ _ _ hf
    omega
  | succ f ih =>
    intro n s depth grouped a a' hs hf hn hform
    have hskip := skipComments_eq fun w => not_comment (w := w) hs.clear
    have htext : ∀ C : Setting, readRepeat (C.progress s).rest =
        (readRepeat s.rest).map (Option.map fun r => (r.1, C.text r.2)) := fun C =>
      C.readRepeat_text s.rest
    intro b s' h
    cases hr : readRepeat s.rest with
    | error e =>
      rw [readRepeats, reading_bind_eq hskip, reading_bind_eq rest_eq, hr] at h
      cases h
    | ok x =>
      simp only [hr, Except.map] at htext
      cases x with
      | none =>
        rw [readRepeats_none hskip hr] at h
        cases h
        exact ⟨_, ⟨a', rfl, hform, .refl a', Goes.refl hs, rfl⟩, fun _ => .inl fun C _ _ =>
          readRepeats_none (skipComments_eq fun w => not_comment_text C hs.clear) (htext C)⟩
      | some x =>
        obtain ⟨r, after⟩ := x
        have hlen := length_readRepeat hr
        have hgo := hs.goes (kept_readRepeat hs.clear hr)
        rw [readRepeats_some hskip hr] at h
        by_cases hrep : a.isRepeatable = true
        · have hrep' : ∀ C : Setting, (a'.moved C.offset).isRepeatable = true := fun C => by
            rw [isRepeatable_moved, isRepeatable_congr hform, hrep]
          rw [if_pos hrep] at h
          by_cases hd : maxNesting ≤ depth
          · rw [if_pos hd] at h
            cases h
          · rw [if_neg hd] at h
            obtain ⟨b, s1, hb, h⟩ := reading_bind_ok h
            obtain ⟨happ, rfl⟩ := lift_ok hb
            obtain ⟨b', happ', hform'⟩ := apply_form hform happ
            have hf' : after.length + 1 ≤ f := by omega
            have hn' : ∀ C : Setting, (C.text after).length + 1 ≤ n C - 1 := fun C => by
              have hlenC : (C.text after).length + 1 ≤ (C.text s.rest).length :=
                length_readRepeat (htext C)
              have hnC := hn C
              omega
            obtain ⟨_, ⟨c, rfl, hc, halike, hgo', hg⟩, hall⟩ :=
              ih (n := fun C => n C - 1) (depth + 1) false hgo.fine hf' hn' hform' _ _ h
            refine ⟨_, ⟨c, rfl, hc, (Alike.apply happ').trans halike, hgo.trans hgo', hg⟩,
              fun deeper => ?_⟩
            by_cases hd' : maxNesting ≤ depth + deeper
            · refine .inr ⟨by simp only [bne_iff_ne, ne_eq]; omega, fun C _ _ => ?_⟩
              simp only [readRepeats_text C hs hr (hn C), hrep', if_pos hd', if_true]
            · have hstep : ∀ C : Setting, readRepeats (n C) (depth + deeper) grouped
                    (a'.moved C.offset) (C.progress s) =
                  readRepeats (n C - 1) (depth + 1 + deeper) false (b'.moved C.offset)
                    (C.progress { s with rest := after }) := by
                intro C
                have happC : r.apply grouped (a'.moved C.offset) = .ok (b'.moved C.offset) := by
                  rw [apply_moved, happ']
                  rfl
                rw [readRepeats_text C hs hr (hn C), if_pos (hrep' C), if_neg hd',
                  reading_bind_eq (lift_eq happC), Nat.add_right_comm]
              rcases hall deeper with hall | ⟨hne, hall⟩
              · exact .inl fun C hC n => (hstep C).trans (hall C hC n)
              · exact .inr ⟨hne, fun C hC n => (hstep C).trans (hall C hC n)⟩
        · rw [if_neg hrep] at h
          cases h

/-! ## 2. The heads of groups -/

/-- Whether a head opens no numbered group, and switches nothing. -/
def GroupHead.isHolding : GroupHead → Bool
  | .plain | .atomic | .look _ _ => true
  | .capture _ | .scoped _ | .options _ => false

theorem eq_of_plain {c d : Char} {cs : List Char} (h : (nextPiece c cs).1 = .plain d) : c = d := by
  have ht := text_nextPiece c cs
  rw [h] at ht
  simp only [Piece.text, List.cons_append, List.nil_append, List.cons.injEq] at ht
  exact ht.1.symm

/-- What follows the question mark of a group in a clear text. -/
theorem exists_special {opened : Nat} {cs : List Char} (h : Clear opened ('(' :: '?' :: cs)) :
    (∃ c w, cs = c :: w ∧ [':', '=', '!', '>'].contains c = true) ∨
      ∃ c w, cs = '<' :: c :: w ∧ (c = '=' ∨ c = '!') := by
  have hc := (clear_special h).2.2
  cases cs with
  | nil => cases hc
  | cons c cs =>
    rw [pieces_cons] at hc
    cases hp : (nextPiece c cs).1 with
    | plain d =>
      have hcd := eq_of_plain hp
      subst hcd
      rw [hp] at hc
      by_cases hlt : c = '<'
      · subst hlt
        rw [nextPiece_bare (by decide)] at hc
        cases cs with
        | nil => cases hc
        | cons d cs =>
          rw [pieces_cons] at hc
          cases hp' : (nextPiece d cs).1 with
          | plain e =>
            have hde := eq_of_plain hp'
            subst hde
            rw [hp'] at hc
            simp only [Piece.isClear, Bool.or_eq_true, beq_iff_eq] at hc
            exact .inr ⟨d, cs, rfl, hc⟩
          | _ => rw [hp'] at hc; cases hc
      · refine .inl ⟨c, cs, rfl, ?_⟩
        unfold Piece.isClear at hc
        split at hc <;> simp_all
    | _ => rw [hp] at hc; cases hc

theorem readHead_capture (flags : Flags) {c : Char} (hc : c ≠ '?') (cs : List Char) :
    readHead flags (c :: cs) = .ok (.capture none, c :: cs) := by
  unfold readHead
  split <;> simp_all

theorem readHead_special {c : Char} (hc : [':', '=', '!', '>'].contains c = true) :
    ∃ head : GroupHead, head.isHolding = true ∧
      ∀ flags cs, readHead flags ('?' :: c :: cs) = .ok (head, cs) := by
  simp only [List.contains_iff_mem, List.mem_cons, List.not_mem_nil, or_false] at hc
  rcases hc with rfl | rfl | rfl | rfl
  · exact ⟨.plain, rfl, fun _ _ => rfl⟩
  · exact ⟨.look false false, rfl, fun _ _ => rfl⟩
  · exact ⟨.look false true, rfl, fun _ _ => rfl⟩
  · exact ⟨.atomic, rfl, fun _ _ => rfl⟩

theorem readHead_behind {c : Char} (hc : c = '=' ∨ c = '!') :
    ∃ head : GroupHead, head.isHolding = true ∧
      ∀ flags cs, readHead flags ('?' :: '<' :: c :: cs) = .ok (head, cs) := by
  rcases hc with rfl | rfl
  · exact ⟨.look true false, rfl, fun _ _ => rfl⟩
  · exact ⟨.look true true, rfl, fun _ _ => rfl⟩

/-- **A group that begins there begins with the same head.** -/
theorem readHead_text {opened : Nat} {flags : Flags} {cs after : List Char} {head : GroupHead}
    (hcl : Clear opened ('(' :: cs)) (h : readHead flags cs = .ok (head, after)) :
    ((head = .capture none ∧ Clear (opened + 1) after ∧ opens ('(' :: cs) = opens after + 1) ∨
        (head.isHolding = true ∧ Clear opened after ∧ opens ('(' :: cs) = opens after)) ∧
      (IsCut ('(' :: cs) → IsCut after) ∧
      ∀ (C : Setting) (flags' : Flags), readHead flags' (C.text cs) = .ok (head, C.text after) := by
  cases cs with
  | nil => cases h
  | cons c cs =>
    by_cases hq : c = '?'
    · subst hq
      obtain ⟨hcl', hop, _⟩ := clear_special hcl
      rcases exists_special hcl with ⟨c, w, rfl, hc⟩ | ⟨c, w, rfl, hc⟩
      · have hb : isBare c = true := by
          simp only [List.contains_iff_mem, List.mem_cons, List.not_mem_nil, or_false] at hc
          rcases hc with rfl | rfl | rfl | rfl <;> rfl
        obtain ⟨head', hh, hall⟩ := readHead_special hc
        rw [hall] at h
        cases h
        obtain ⟨hw, ho⟩ := clear_bare hb hcl'
        refine ⟨.inr ⟨hh, hw, hop.trans ho⟩, fun hcut => isCut_bare hb (isCut_special hcut),
          fun C flags' => ?_⟩
        rw [text_bare C (by decide), text_bare C hb, hall]
      · have hb : isBare c = true := by
          rcases hc with rfl | rfl <;> rfl
        obtain ⟨head', hh, hall⟩ := readHead_behind hc
        rw [hall] at h
        cases h
        obtain ⟨hw, ho⟩ := clear_bare (by decide) hcl'
        obtain ⟨hw', ho'⟩ := clear_bare hb hw
        refine ⟨.inr ⟨hh, hw', hop.trans (ho.trans ho')⟩, fun hcut =>
          isCut_bare hb (isCut_bare (by decide) (isCut_special hcut)), fun C flags' => ?_⟩
        rw [text_bare C (by decide), text_bare C (by decide), text_bare C hb, hall]
    · rw [readHead_capture flags hq] at h
      cases h
      have hhead : (c :: cs).head? ≠ some '?' := by simpa using hq
      obtain ⟨hcl', ho⟩ := clear_opening hhead hcl
      refine ⟨.inl ⟨rfl, hcl', ho⟩, isCut_opening hhead, fun C flags' => ?_⟩
      obtain ⟨w, hw⟩ := List.head?_eq_some_iff.mp (C.head?_text_cons c cs)
      rw [hw, readHead_capture flags' hq]

/-! ## 3. What stands between pieces -/

section Between

variable {s : Progress}

/-- A step that is refused beyond some depth. -/
theorem Carries.guard {α β : Type} {x : Reading α} {y : Nat → Setting → Nat → Reading β}
    {R : α → (Setting → β) → Progress → Prop} {p : Nat → Prop} [DecidablePred p]
    {within : Progress → Setting → Prop} (h : Carries s x y R within) :
    Carries s (if p 0 then throw .tooDeep else x)
      (fun deeper C spare => if p deeper then throw .tooDeep else y deeper C spare) R within := by
  intro a s' ha
  by_cases h0 : p 0
  · rw [if_pos h0] at ha
    cases ha
  · rw [if_neg h0] at ha
    obtain ⟨b, hR, hy⟩ := h a s' ha
    refine ⟨b, hR, fun deeper => ?_⟩
    by_cases hd : p deeper
    · refine .inr ⟨?_, fun C _ spare => by simp only [if_pos hd]; rfl⟩
      simp only [bne_iff_ne, ne_eq]
      rintro rfl
      exact h0 hd
    · simp only [if_neg hd]
      exact hy deeper

/-- Whether a row ends before a text. -/
def endsRow (cs : List Char) : Bool := cs.head?.all fun c => c == '|' || c == ')'

theorem atRowEnd_eq : atRowEnd s = .ok (endsRow s.rest, s) := by
  unfold atRowEnd
  rw [reading_bind_eq rest_eq]
  cases s.rest with
  | nil => rfl
  | cons c cs =>
    by_cases h1 : c = '|'
    · subst h1
      rfl
    by_cases h2 : c = ')'
    · subst h2
      rfl
    have he : endsRow (c :: cs) = false := by simp [endsRow, h1, h2]
    rw [he]
    simp [h1, h2]
    rfl

theorem endsRow_text (C : Setting) (cs : List Char) : endsRow (C.text cs) = endsRow cs := by
  cases cs with
  | nil =>
    unfold endsRow
    cases ht : (C.text []).head? with
    | none => rfl
    | some c => rcases C.head?_text_nil c ht with rfl | rfl <;> rfl
  | cons c cs => simp only [endsRow, C.head?_text_cons, List.head?_cons]

/-- Where a row ends it ends in every setting. -/
theorem carries_atRowEnd :
    Carries s atRowEnd (fun _ _ _ => atRowEnd) (fun e b s' => b = (fun _ => e) ∧ s' = s) := by
  refine Carries.of_ok fun e s' h => ?_
  rw [atRowEnd_eq] at h
  cases h
  refine ⟨_, ⟨rfl, rfl⟩, fun _ C _ => ?_⟩
  rw [atRowEnd_eq]
  show Except.ok (endsRow (C.text s.rest), _) = _
  rw [endsRow_text]

/-- What closes a group there closes it on its own. -/
theorem carries_closeGroup (hs : Fine s) :
    Carries s closeGroup (fun _ _ _ => closeGroup)
      (fun _ _ s' => Goes s s' ∧ s'.groups = s.groups) := by
  refine Carries.of_ok fun _ s' h => ?_
  unfold closeGroup at h
  rw [reading_bind_eq rest_eq] at h
  cases hr : s.rest with
  | nil => rw [hr] at h; cases h
  | cons c cs =>
    rw [hr] at h
    by_cases hc : c = ')'
    · subst hc
      cases h
      have hk := kept_bare (by decide) (hr ▸ hs.clear)
      refine ⟨fun _ => (), ⟨hs.goes (hr ▸ hk), rfl⟩, fun _ C _ => ?_⟩
      unfold closeGroup
      rw [reading_bind_eq rest_eq]
      have ht : (C.progress s).rest = ')' :: C.text cs := by
        show C.text s.rest = _
        rw [hr, text_bare C (by decide)]
      rw [ht]
      rfl
    · simp [hc] at h
      cases h

/-- What closes a group ends the alternatives before it in every setting. -/
theorem Carries.bindClosed {α β γ δ : Type} {x : Reading α} {y : Nat → Setting → Nat → Reading β}
    {R : α → (Setting → β) → Progress → Prop} {f : α → Unit → Reading γ}
    {g : Nat → Setting → Nat → β → Reading δ} {S : γ → (Setting → δ) → Progress → Prop}
    (h : Carries s x y R EndsIn)
    (h' : ∀ a b s', R a b s' →
      Carries s' (closeGroup >>= f a) (fun deeper C spare => g deeper C spare (b C)) S) :
    Carries s (x >>= fun a => closeGroup >>= f a)
      (fun deeper C spare => y deeper C spare >>= g deeper C spare) S := by
  refine h.bindWithin h' fun a b s' c s'' _ hclose C _ hrest => ?_
  obtain ⟨_, _, hclose, _⟩ := reading_bind_ok hclose
  unfold closeGroup at hclose
  rw [reading_bind_eq rest_eq, hrest] at hclose
  cases hclose

/-- What follows the first alternatives: others behind a bar, or nothing. -/
def readBar (next : Reading Syntax) (last : Syntax → Syntax) (a : Syntax) : Reading Syntax := do
  match ← rest with
  | '|' :: cs =>
    goOn cs
    return .alt a (← next)
  | _ => return last a

theorem readBar_eq (next : Reading Syntax) (last : Syntax → Syntax) (a : Syntax) :
    readBar next last a s =
      if s.rest.head? == some '|' then
        (next >>= fun b => pure (.alt a b) : Reading Syntax) { s with rest := s.rest.tail }
      else .ok (last a, s) := by
  unfold readBar
  rw [reading_bind_eq rest_eq]
  cases s.rest with
  | nil => rfl
  | cons c cs =>
    by_cases hc : c = '|'
    · subst hc
      rfl
    · simp [hc]
      rfl

/-- The alternatives behind a bar. Where there are none, none may follow in the setting either. -/
theorem carries_readBar {s' : Progress} {a : Syntax} {b : Setting → Syntax}
    {next : Reading Syntax} {next' : Nat → Setting → Nat → Reading Syntax} {last : Syntax → Syntax}
    (hmoved : ∀ offset a, (last a).moved offset = last (a.moved offset))
    (hform : ∀ a, (last a).form = a.form) (halike : ∀ a, Alike a (last a))
    (h : Reads s a b s')
    (hnext : ∀ {cs}, s'.rest = '|' :: cs → Fine { s' with rest := cs } →
      Carries { s' with rest := cs } next next' (Reads { s' with rest := cs }) EndsIn) :
    Carries s' (readBar next last a) (fun deeper C spare => readBar (next' deeper C spare) last (b C))
      (Reads s) EndsIn := by
  obtain ⟨a', rfl, hf, hgo, hh⟩ := h
  cases hbar : s'.rest.head? == some '|' with
  | false =>
    intro c s'' hc
    rw [readBar_eq, hbar] at hc
    cases hc
    refine ⟨fun C => last (a'.moved C.offset), ⟨last a', ?_, ?_, hgo, hh.alike (halike a')⟩, ?_⟩
    · exact funext fun C => (hmoved C.offset a').symm
    · rw [hform, hform, hf]
    · refine fun deeper => .inl fun C hC spare => ?_
      have hbar' : ((C.progress s').rest.head? == some '|') = false := by
        show ((C.text s'.rest).head? == some '|') = false
        cases hr : s'.rest with
        | nil => exact beq_eq_false_iff_ne.mpr (hC hr)
        | cons c cs => rw [C.head?_text_cons]; rw [hr] at hbar; exact hbar
      show readBar _ last _ (C.progress s') = _
      rw [readBar_eq, hbar']
      rfl
  | true =>
    obtain ⟨cs, hr⟩ := List.head?_eq_some_iff.mp (by simpa using hbar)
    have hk := kept_bare (by decide) (hr ▸ hgo.fine.clear)
    have hgo' := hgo.fine.goes (hr ▸ hk)
    have ht : ∀ C : Setting, (C.progress s').rest = '|' :: C.text cs := fun C => by
      show C.text s'.rest = _
      rw [hr, text_bare C (by decide)]
    refine Carries.step (z := next >>= fun b => pure (.alt a b))
      (w := fun deeper C spare => next' deeper C spare >>= fun b => pure (.alt (a'.moved C.offset) b))
      (t := { s' with rest := cs }) ?_ ?_ ?_
    · rw [readBar_eq, hbar, hr]
      rfl
    · intro deeper C spare
      show readBar _ last _ (C.progress s') = _
      rw [readBar_eq, ht C]
      rfl
    · refine (hnext hr hgo'.fine).bindWithin (fun b c s'' hread => ?_) ?_
      · obtain ⟨b', rfl, hf', hgo'', hh'⟩ := hread
        refine (Carries.pure ⟨.alt a' b', rfl, form_alt hf hf', (hgo.trans hgo').trans hgo'',
          ?_⟩).restrict
        have ho : s'.opened = s.opened := hgo.opened
        exact hh.alt (ho ▸ hh')
      · rintro b c s'' d _ _ ⟨⟩ C hC
        exact hC

end Between

/-! ## 4. Pieces -/

section Pieces

variable {f depth : Nat} {flags : Flags} {s : Progress} {cs : List Char}

/-- A piece with the repetitions behind it. -/
def repeated (depth : Nat) (grouped : Bool) (a : Syntax) : Reading Syntax := do
  readRepeats ((← rest).length + 1) depth grouped a

theorem carries_repeated {s' : Progress} {a : Syntax} {b : Setting → Syntax} (grouped : Bool)
    (h : Reads s a b s') :
    Carries s' (repeated depth grouped a)
      (fun deeper C _ => repeated (depth + deeper) grouped (b C)) (Reads s) := by
  obtain ⟨a', rfl, hf, hgo, hh⟩ := h
  refine Carries.step (t := s') (w := fun deeper C _ =>
    readRepeats ((C.text s'.rest).length + 1) (depth + deeper) grouped (a'.moved C.offset))
    (reading_bind_eq rest_eq) (fun deeper C _ => reading_bind_eq rest_eq) ?_
  refine (carries_readRepeats (s'.rest.length + 1) (n := fun C => (C.text s'.rest).length + 1) depth
    grouped hgo.fine (Nat.le_refl _) (fun _ => Nat.le_refl _) hf).mono fun c d s'' hr => ?_
  obtain ⟨c', rfl, hc, halike, hgo', hg⟩ := hr
  exact ⟨c', rfl, hc, hgo.trans hgo', hg ▸ hh.alike halike⟩

/-- What a head announces, with the repetitions behind it. -/
def readHeaded (f depth : Nat) (flags : Flags) (head : GroupHead) : Reading Syntax := do
  match head with
  | .options flags => return .group .scoped (← readAlternatives f depth flags)
  | .plain =>
    let a ← readAlternatives f depth flags
    closeGroup
    repeated depth true a
  | head => repeated depth false (← readGroup f depth flags head)

/-- What a piece is that does not begin with a plain character. -/
def readAnnounced (f depth : Nat) (flags : Flags) : List Char → Reading Syntax
  | '(' :: cs => do
    let (head, cs) ← readHead flags cs
    goOn cs
    readHeaded f depth flags head
  | '[' :: cs => do
    goOn cs
    let (negated, s) ← readClass (2 * cs.length + 2) depth
    repeated depth false (Syntax.ofClass ⟨s, negated, flags.folded⟩)
  | '\\' :: cs => do repeated depth false (← readEscaped flags cs)
  | '.' :: cs => do
    goOn cs
    repeated depth false (plainSet (if flags.dotAll then .compl .empty else .compl (.single '\n')))
  | '^' :: cs => do
    goOn cs
    repeated depth false (.anchor .lineStart)
  | '$' :: cs => do
    goOn cs
    repeated depth false (.anchor .lineEnd)
  | _ => throw .nothingToRepeat

theorem readPiece_succ :
    readPiece (f + 1) depth flags = (do
      match ← readText (← rest).length with
      | c :: cs => repeated depth false (.text (c :: cs) flags.folded)
      | [] => readAnnounced f depth flags (← rest)) := by
  rw [readPiece]
  rfl

theorem readAlternatives_succ :
    readAlternatives (f + 1) depth flags =
      if maxNesting < depth + 2 then throw .tooDeep
      else readBranch f (depth + 2) flags >>= readBar (readFurther f (depth + 2) flags) id := by
  rw [readAlternatives]
  split <;> rfl

theorem readFurther_succ :
    readFurther (f + 1) depth flags =
      readBranch f depth flags >>= readBar (readFurther f depth flags) Syntax.held := by
  rw [readFurther]
  rfl

theorem readBranch_succ :
    readBranch (f + 1) depth flags = (do
      skipComments
      if ← atRowEnd then return .empty
      else
        let a ← readPiece f depth flags
        if ← atRowEnd then return a else return .cat a (← readRow f depth flags)) := by
  rw [readBranch]

theorem readRow_succ :
    readRow (f + 1) depth flags = (do
      let a ← readPiece f depth flags
      if ← atRowEnd then return a else return a.followedBy (← readRow f depth flags)) := by
  rw [readRow]

/-- A tree in a group that has no number. -/
def GroupHead.hold (head : GroupHead) (a : Syntax) : Syntax :=
  match head with
  | .atomic => .group .atomic a
  | .look isBehind negated => if isBehind then .behind negated 0 a else .ahead negated a
  | _ => a

theorem readGroup_holding {head : GroupHead} (hh : head.isHolding = true)
    (hne : head ≠ .plain) :
    readGroup (f + 1) depth flags head = (do
      let a ← readAlternatives f depth flags
      closeGroup
      return head.hold a) := by
  cases head with
  | plain => exact absurd rfl hne
  | atomic => rw [readGroup]; rfl
  | look isBehind negated => rw [readGroup]; rfl
  | _ => cases hh

theorem readGroup_capture :
    readGroup (f + 1) depth flags (.capture none) = (do
      let n ← openGroup none
      let a ← readAlternatives f depth flags
      closeGroup
      modify fun s => { s with opened := s.opened.erase n }
      return .group (.capture n) a) := by
  rw [readGroup]

end Pieces

/-! ## 5. The grammar -/

theorem Carries.congr {α β : Type} {s : Progress} {x z : Reading α}
    {y w : Nat → Setting → Nat → Reading β} {R : α → (Setting → β) → Progress → Prop}
    {within : Progress → Setting → Prop} (hx : x = z)
    (hy : ∀ deeper C spare, y deeper C spare = w deeper C spare) (h : Carries s z w R within) :
    Carries s x y R within :=
  Carries.step (congrFun hx s) (fun deeper C spare => congrFun (hy deeper C spare) _) h

/-- What `f` steps read of a clear text they read in every setting, also with steps to spare;
    alternatives where they end. -/
structure Carried (flags flags' : Flags) (f : Nat) : Prop where
  alternatives : ∀ {depth : Nat} {s : Progress}, Fine s →
    Carries s (readAlternatives f depth flags)
      (fun deeper _ spare => readAlternatives (f + spare) (depth + deeper) flags') (Reads s) EndsIn
  further : ∀ {depth : Nat} {s : Progress}, Fine s →
    Carries s (readFurther f depth flags)
      (fun deeper _ spare => readFurther (f + spare) (depth + deeper) flags') (Reads s) EndsIn
  branch : ∀ {depth : Nat} {s : Progress}, Fine s →
    Carries s (readBranch f depth flags)
      (fun deeper _ spare => readBranch (f + spare) (depth + deeper) flags') (Reads s)
  row : ∀ {depth : Nat} {s : Progress}, Fine s →
    Carries s (readRow f depth flags)
      (fun deeper _ spare => readRow (f + spare) (depth + deeper) flags') (Reads s)
  piece : ∀ {depth : Nat} {s : Progress}, Fine s →
    Carries s (readPiece f depth flags)
      (fun deeper _ spare => readPiece (f + spare) (depth + deeper) flags') (Reads s)
  holding : ∀ {depth : Nat} {s : Progress} {head : GroupHead}, Fine s → head.isHolding = true →
    head ≠ .plain →
    Carries s (readGroup f depth flags head)
      (fun deeper _ spare => readGroup (f + spare) (depth + deeper) flags' head) (Reads s)
  capture : ∀ {depth : Nat} {s : Progress} {after : List Char}, Fine s →
    Clear (s.groups + 1) after → opens s.rest = opens after + 1 → (IsCut s.rest → IsCut after) →
    Carries { s with rest := after } (readGroup f depth flags (.capture none))
      (fun deeper _ spare => readGroup (f + spare) (depth + deeper) flags' (.capture none)) (Reads s)

variable {flags flags' : Flags} {f : Nat}

theorem carried_zero : Carried flags flags' 0 where
  alternatives := fun _ => Carries.of_error (e := .tooDeep) (by rw [readAlternatives]; rfl)
  further := fun _ => Carries.of_error (e := .tooDeep) (by rw [readFurther]; rfl)
  branch := fun _ => Carries.of_error (e := .tooDeep) (by rw [readBranch]; rfl)
  row := fun _ => Carries.of_error (e := .tooDeep) (by rw [readRow]; rfl)
  piece := fun _ => Carries.of_error (e := .tooDeep) (by rw [readPiece]; rfl)
  holding := fun _ _ _ => Carries.of_error (e := .tooDeep) (by rw [readGroup]; rfl)
  capture := fun _ _ _ _ => Carries.of_error (e := .tooDeep) (by rw [readGroup]; rfl)

section Single

variable {depth : Nat} {s : Progress}

/-- What begins with no plain character begins there with the same one. -/
theorem cons_tail_text (C : Setting) {c : Char} {cs : List Char} (hr : s.rest = c :: cs) :
    C.text s.rest = c :: (C.text s.rest).tail := by
  rw [hr]
  obtain ⟨w, hw⟩ := List.head?_eq_some_iff.mp (C.head?_text_cons c cs)
  rw [hw]
  rfl

/-- One character of its own. -/
theorem carries_single {c : Char} {cs : List Char} {a b : Syntax} (hs : Fine s)
    (hr : s.rest = c :: cs) (hc : isBare c = true) (hl : b.isLeaf = true)
    (hf : b.form = a.form) :
    Carries s (goOn cs >>= fun _ => repeated depth false a)
      (fun deeper C _ => goOn (C.text s.rest).tail >>= fun _ => repeated (depth + deeper) false b)
      (Reads s) := by
  have ht : ∀ C : Setting, (C.text s.rest).tail = C.text cs := fun C => by
    rw [hr, text_bare C hc, List.tail_cons]
  simp only [ht]
  refine (carries_goOn cs).bind fun _ _ s' hs' => ?_
  subst hs'
  have hk := kept_bare hc (hr ▸ hs.clear)
  exact carries_repeated false (reads_leaf hl hf (hs.goes (hr ▸ hk)) rfl)

/-- What has been read behind a part of a text, from before that part on. -/
theorem Goes.reads {s s' s'' : Progress} {a : Syntax} {b : Setting → Syntax} (h : Goes s s')
    (hg : s'.groups = s.groups) (h' : Reads s' a b s'') : Reads s a b s'' := by
  obtain ⟨a', rfl, hf, hgo, hh⟩ := h'
  exact ⟨a', rfl, hf, h.trans hgo, hg ▸ h.opened ▸ hh⟩

end Single

section Step

variable (h : Carried flags flags' f) {depth : Nat} {s : Progress}

theorem spare_succ {α : Type} (x : Nat → α) (spare : Nat) :
    x (f + 1 + spare) = x (f + spare + 1) := congrArg x (Nat.add_right_comm f 1 spare)

include h

theorem carries_alternatives (hs : Fine s) :
    Carries s (readAlternatives (f + 1) depth flags)
      (fun deeper _ spare => readAlternatives (f + 1 + spare) (depth + deeper) flags') (Reads s)
      EndsIn := by
  refine Carries.congr readAlternatives_succ (fun deeper C spare =>
    (spare_succ (readAlternatives · (depth + deeper) flags') spare).trans readAlternatives_succ) ?_
  refine Carries.guard (p := fun deeper => maxNesting < depth + deeper + 2) ?_
  simp only [Nat.add_right_comm depth _ 2]
  refine (h.branch hs).bind fun a b s' hr => ?_
  exact carries_readBar (fun _ _ => rfl) (fun _ => rfl) .refl hr fun _ hs' => h.further hs'

theorem carries_further (hs : Fine s) :
    Carries s (readFurther (f + 1) depth flags)
      (fun deeper _ spare => readFurther (f + 1 + spare) (depth + deeper) flags') (Reads s)
      EndsIn := by
  refine Carries.congr readFurther_succ (fun deeper C spare =>
    (spare_succ (readFurther · (depth + deeper) flags') spare).trans readFurther_succ) ?_
  refine (h.branch hs).bind fun a b s' hr => ?_
  exact carries_readBar (fun offset a => moved_held offset a) form_held .held hr fun _ hs' =>
    h.further hs'

theorem carries_branch (hs : Fine s) :
    Carries s (readBranch (f + 1) depth flags)
      (fun deeper _ spare => readBranch (f + 1 + spare) (depth + deeper) flags') (Reads s) := by
  refine Carries.congr readBranch_succ (fun deeper C spare =>
    (spare_succ (readBranch · (depth + deeper) flags') spare).trans readBranch_succ) ?_
  refine (carries_skipComments hs).bind fun _ _ s' hs' => ?_
  subst hs'
  refine carries_atRowEnd.bind fun e b s' he => ?_
  obtain ⟨rfl, rfl⟩ := he
  cases e with
  | true =>
    simp only [if_true]
    exact Carries.pure (reads_leaf rfl rfl (Goes.refl hs) rfl)
  | false =>
    simp only [Bool.false_eq_true, if_false]
    refine (h.piece hs).bind fun a b s1 ha => ?_
    refine carries_atRowEnd.bind fun e b s' he => ?_
    obtain ⟨rfl, rfl⟩ := he
    cases e with
    | true =>
      simp only [if_true]
      exact Carries.pure ha
    | false =>
      simp only [Bool.false_eq_true, if_false]
      obtain ⟨a', rfl, hf, hgo, hh⟩ := ha
      refine (h.row hgo.fine).bind fun c d s2 hc => ?_
      obtain ⟨c', rfl, hf', hgo', hh'⟩ := hc
      exact Carries.pure ⟨.cat a' c', rfl, rfl, hgo.trans hgo', hh.cat (hgo.opened ▸ hh')⟩

theorem carries_row (hs : Fine s) :
    Carries s (readRow (f + 1) depth flags)
      (fun deeper _ spare => readRow (f + 1 + spare) (depth + deeper) flags') (Reads s) := by
  refine Carries.congr readRow_succ (fun deeper C spare =>
    (spare_succ (readRow · (depth + deeper) flags') spare).trans readRow_succ) ?_
  refine (h.piece hs).bind fun a b s1 ha => ?_
  refine carries_atRowEnd.bind fun e b s' he => ?_
  obtain ⟨rfl, rfl⟩ := he
  cases e with
  | true =>
    simp only [if_true]
    exact Carries.pure ha
  | false =>
    simp only [Bool.false_eq_true, if_false]
    obtain ⟨a', rfl, hf, hgo, hh⟩ := ha
    refine (h.row hgo.fine).bind fun c d s2 hc => ?_
    obtain ⟨c', rfl, hf', hgo', hh'⟩ := hc
    refine Carries.pure ⟨a'.followedBy c', ?_, ?_, hgo.trans hgo',
      hh.followedBy (hgo.opened ▸ hh')⟩
    · exact funext fun C => (moved_followedBy C.offset a' c').symm
    · rw [form_followedBy, form_followedBy]

theorem carries_holding {head : GroupHead} (hs : Fine s) (hh : head.isHolding = true)
    (hne : head ≠ .plain) :
    Carries s (readGroup (f + 1) depth flags head)
      (fun deeper _ spare => readGroup (f + 1 + spare) (depth + deeper) flags' head) (Reads s) := by
  refine Carries.congr (readGroup_holding hh hne) (fun deeper C spare =>
    (spare_succ (readGroup · (depth + deeper) flags' head) spare).trans
      (readGroup_holding hh hne)) ?_
  refine (h.alternatives hs).bindClosed fun a b s1 ha => ?_
  obtain ⟨a', rfl, hf, hgo, hholds⟩ := ha
  refine (carries_closeGroup hgo.fine).bind fun _ _ s2 hc => ?_
  obtain ⟨hgo', hg⟩ := hc
  refine Carries.pure ⟨head.hold a', ?_, ?_, hgo.trans hgo', hg ▸ hholds.alike ?_⟩
  · funext C
    cases head with
    | look isBehind negated => cases isBehind <;> rfl
    | atomic => rfl
    | plain => exact absurd rfl hne
    | _ => cases hh
  · cases head with
    | look isBehind negated => cases isBehind <;> rfl
    | atomic => rfl
    | plain => exact absurd rfl hne
    | _ => cases hh
  · cases head with
    | look isBehind negated => cases isBehind <;> exact ⟨rfl, rfl, rfl, fun _ h => h⟩
    | atomic => exact ⟨rfl, rfl, rfl, fun _ h => h⟩
    | plain => exact absurd rfl hne
    | _ => cases hh

theorem carries_capture {after : List Char} (hs : Fine s) (hcl : Clear (s.groups + 1) after)
    (hop : opens s.rest = opens after + 1) (hcut : IsCut s.rest → IsCut after) :
    Carries { s with rest := after } (readGroup (f + 1) depth flags (.capture none))
      (fun deeper _ spare => readGroup (f + 1 + spare) (depth + deeper) flags' (.capture none))
      (Reads s) := by
  refine Carries.congr readGroup_capture (fun deeper C spare =>
    (spare_succ (readGroup · (depth + deeper) flags' (.capture none)) spare).trans
      readGroup_capture) ?_
  have hopen : Carries { s with rest := after } (openGroup none) (fun _ _ _ => openGroup none)
      (fun n b s' => n = s.groups + 1 ∧ b = (fun C => s.groups + 1 + C.offset) ∧
        s' = ⟨after, s.groups + 1, s.names, (s.groups + 1) :: s.opened⟩) := by
    refine Carries.of_ok fun n s' hn => ?_
    cases hn
    refine ⟨_, ⟨rfl, rfl, rfl⟩, fun _ C _ => ?_⟩
    rw [Nat.add_right_comm]
    show Except.ok _ = Except.ok (_, Setting.progress C _)
    simp only [Setting.progress, Nat.add_right_comm _ 1, List.map_cons, List.cons_append]
    rfl
  refine hopen.bind fun n b s2 hn => ?_
  obtain ⟨rfl, rfl, rfl⟩ := hn
  have hs2 : Fine ⟨after, s.groups + 1, s.names, (s.groups + 1) :: s.opened⟩ := ⟨hcl, hs.names⟩
  refine (h.alternatives hs2).bindClosed fun a b s3 ha => ?_
  obtain ⟨a', rfl, hf, hgo, hholds⟩ := ha
  refine (carries_closeGroup hgo.fine).bind fun _ _ s4 hc => ?_
  obtain ⟨hgo', hg⟩ := hc
  have hopened : s4.opened = (s.groups + 1) :: s.opened := hgo'.opened.trans hgo.opened
  have herase : Carries s4
      (modify fun s' => { s' with opened := s'.opened.erase (s.groups + 1) } : Reading Unit)
      (fun _ C _ => modify fun s' =>
        { s' with opened := s'.opened.erase (s.groups + 1 + C.offset) })
      (fun _ _ s' => s' = { s4 with opened := s.opened }) := by
    refine Carries.of_ok fun _ s' he => ?_
    cases he
    refine ⟨fun _ => (), ?_, fun _ C _ => ?_⟩
    · show ({ s4 with opened := s4.opened.erase (s.groups + 1) } : Progress) = _
      rw [hopened, List.erase_cons_head]
    · show Except.ok ((), _) = _
      simp only [Setting.progress, hopened, List.map_cons, List.cons_append, List.erase_cons_head]
  refine herase.bind fun _ _ s5 he => ?_
  subst he
  refine Carries.pure ⟨.group (.capture (s.groups + 1)) a', rfl, rfl, ?_, ?_⟩
  · have hle := hgo.le
    have hle' := hgo'.le
    have ho := hgo.opens
    have ho' := hgo'.opens
    simp only at hle ho
    refine ⟨⟨hgo'.fine.clear, hgo'.fine.names⟩, rfl, ?_, ?_, fun hc => hgo'.cut (hgo.cut (hcut hc))⟩
    · show s.groups ≤ s4.groups
      omega
    · show s4.groups + opens s4.rest = s.groups + opens s.rest
      omega
  · exact Holds.capture (hg ▸ hholds)

/-- A parenthesis, the head behind it, and the group that the head announces. -/
theorem carries_group (hs : Fine s) {cs : List Char} (hr : s.rest = '(' :: cs) :
    Carries s (readAnnounced f depth flags s.rest)
      (fun deeper C spare => readAnnounced (f + spare) (depth + deeper) flags' (C.text s.rest))
      (Reads s) := by
  have hcl := hs.clear
  rw [hr] at hcl
  have htext : ∀ C : Setting, C.text s.rest = '(' :: C.text cs := fun C => by
    rw [hr, text_paren]
  have hhead : Carries s (liftM (readHead flags cs) : Reading _)
      (fun _ C _ => (liftM (readHead flags' (C.text cs)) : Reading _))
      (fun x b s' => (b = (fun C => (x.1, C.text x.2)) ∧
        ((x.1 = .capture none ∧ Clear (s.groups + 1) x.2 ∧
            opens ('(' :: cs) = opens x.2 + 1) ∨
          (x.1.isHolding = true ∧ Clear s.groups x.2 ∧ opens ('(' :: cs) = opens x.2)) ∧
        (IsCut ('(' :: cs) → IsCut x.2)) ∧ s' = s) :=
    carries_lift fun x hx =>
      have hall := readHead_text hcl hx
      ⟨_, ⟨rfl, hall.1, hall.2.1⟩, fun C => hall.2.2 C flags'⟩
  refine Carries.congr (z := (liftM (readHead flags cs) : Reading _) >>= fun x =>
      goOn x.2 >>= fun _ => readHeaded f depth flags x.1)
    (w := fun deeper C spare => (liftM (readHead flags' (C.text cs)) : Reading _) >>= fun x =>
      goOn x.2 >>= fun _ => readHeaded (f + spare) (depth + deeper) flags' x.1)
    (by rw [hr]; rfl) (fun _ C _ => by rw [htext C]; rfl) ?_
  refine hhead.bind fun x b s' hx => ?_
  obtain ⟨⟨rfl, hx, hcut⟩, rfl⟩ := hx
  obtain ⟨head, after⟩ := x
  refine (carries_goOn after).bind fun _ _ s1 hs1 => ?_
  subst hs1
  rcases hx with ⟨rfl, hafter, hop⟩ | ⟨hh, hafter, hop⟩
  · refine (h.capture hs hafter (hr ▸ hop) (hr ▸ hcut)).bind fun a b s2 ha => ?_
    exact carries_repeated false ha
  · have hs1 : Fine { s' with rest := after } := ⟨hafter, hs.names⟩
    have hgo : Goes s' { s' with rest := after } :=
      ⟨hs1, rfl, Nat.le_refl _, by rw [hr, hop], hr ▸ hcut⟩
    by_cases hp : head = .plain
    · subst hp
      refine (h.alternatives hs1).bindClosed fun a b s2 ha => ?_
      obtain ⟨a', rfl, hf, hgo1, hholds⟩ := ha
      refine (carries_closeGroup hgo1.fine).bind fun _ _ s3 hc => ?_
      obtain ⟨hgo2, hg⟩ := hc
      exact carries_repeated true
        ⟨a', rfl, hf, (hgo.trans hgo1).trans hgo2, hg ▸ hholds⟩
    · have hother : ∀ g d fl, readHeaded g d fl head =
          readGroup g d fl head >>= repeated d false := by
        intro g d fl
        cases head with
        | plain => exact absurd rfl hp
        | atomic => rfl
        | look isBehind negated => rfl
        | _ => cases hh
      simp only [hother]
      refine (h.holding hs1 hh hp).bind fun a b s2 ha => ?_
      exact carries_repeated false (hgo.reads rfl ha)

theorem carries_announced (hs : Fine s) :
    Carries s (readAnnounced f depth flags s.rest)
      (fun deeper C spare => readAnnounced (f + spare) (depth + deeper) flags' (C.text s.rest))
      (Reads s) := by
  cases hr : s.rest with
  | nil => exact Carries.of_error (e := .nothingToRepeat) rfl
  | cons c cs =>
    rw [← hr]
    have ht := fun C => cons_tail_text (s := s) C hr
    by_cases h1 : c = '('
    · subst h1
      exact carries_group h hs hr
    by_cases h2 : c = '['
    · subst h2
      refine Carries.congr (z := (goOn cs >>= fun _ => readClass (2 * cs.length + 2) depth) >>=
          fun x => repeated depth false (Syntax.ofClass ⟨x.2, x.1, flags.folded⟩))
        (w := fun deeper C _ => (goOn (C.text s.rest).tail >>= fun _ =>
            readClass (2 * (C.text s.rest).tail.length + 2) (depth + deeper)) >>=
          fun x => repeated (depth + deeper) false (Syntax.ofClass ⟨x.2, x.1, flags'.folded⟩))
        (by rw [hr, bind_assoc]; rfl) (fun _ C _ => by rw [ht C, bind_assoc]; rfl) ?_
      refine (carries_readClass hs hr depth).bind fun x b s' hx => ?_
      obtain ⟨rfl, hgo, hg⟩ := hx
      exact carries_repeated false (reads_leaf (isLeaf_ofClass _)
        ((form_ofClass _).trans (form_ofClass _).symm) hgo hg)
    by_cases h3 : c = '\\'
    · subst h3
      refine Carries.congr (z := readEscaped flags cs >>= repeated depth false)
        (w := fun deeper C _ =>
          readEscaped flags' (C.text s.rest).tail >>= repeated (depth + deeper) false)
        (by rw [hr]; rfl) (fun _ C _ => by rw [ht C]; rfl) ?_
      exact (carries_readEscaped hs hr flags flags').bind fun a b s' ha => carries_repeated false ha
    by_cases h4 : c = '.'
    · subst h4
      exact Carries.congr (by rw [hr]; rfl) (fun _ C _ => by rw [ht C]; rfl)
        (carries_single
          (a := plainSet (if flags.dotAll then .compl .empty else .compl (.single '\n')))
          (b := plainSet (if flags'.dotAll then .compl .empty else .compl (.single '\n')))
          hs hr (by decide) rfl rfl)
    by_cases h5 : c = '^'
    · subst h5
      exact Carries.congr (by rw [hr]; rfl) (fun _ C _ => by rw [ht C]; rfl)
        (carries_single hs hr (by decide) rfl rfl)
    by_cases h6 : c = '$'
    · subst h6
      exact Carries.congr (by rw [hr]; rfl) (fun _ C _ => by rw [ht C]; rfl)
        (carries_single hs hr (by decide) rfl rfl)
    refine Carries.of_error (e := .nothingToRepeat) ?_
    rw [hr]
    simp [readAnnounced, h1, h2, h3, h4, h5, h6]
    rfl

theorem carries_piece (hs : Fine s) :
    Carries s (readPiece (f + 1) depth flags)
      (fun deeper _ spare => readPiece (f + 1 + spare) (depth + deeper) flags') (Reads s) := by
  refine Carries.congr readPiece_succ (fun deeper C spare =>
    (spare_succ (readPiece · (depth + deeper) flags') spare).trans readPiece_succ) ?_
  refine carries_rest.bind fun _ _ s1 hr => ?_
  obtain ⟨rfl, rfl, rfl⟩ := hr
  refine (carries_readText _ hs (Nat.le_refl _) fun _ => Nat.le_refl _).bind fun l b s2 hl => ?_
  obtain ⟨rfl, hgo, hg⟩ := hl
  cases l with
  | cons c cs =>
    exact carries_repeated false (a := .text (c :: cs) flags.folded)
      (reads_leaf (b := .text (c :: cs) flags'.folded) rfl rfl hgo hg)
  | nil =>
    refine carries_rest.bind fun _ _ s3 hr => ?_
    obtain ⟨rfl, rfl, rfl⟩ := hr
    exact (carries_announced h hgo.fine).mono fun a b s4 ha => hgo.reads hg ha

end Step

/-- **The grammar reads in every setting what it reads of a clear text on its own.** -/
theorem carried : ∀ f : Nat, Carried flags flags' f
  | 0 => carried_zero
  | f + 1 => {
      alternatives := carries_alternatives (carried f)
      further := carries_further (carried f)
      branch := carries_branch (carried f)
      row := carries_row (carried f)
      piece := carries_piece (carried f)
      holding := carries_holding (carried f)
      capture := carries_capture (carried f) }

end Highlight.Regex
