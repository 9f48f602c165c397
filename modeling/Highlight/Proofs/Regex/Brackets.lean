import Highlight.Proofs.Regex.Escapes
import Highlight.Proofs.Regex.Readings

/-!
# Bracketed classes in a longer pattern

A class whose closing bracket is where it seems to be is read the same whatever follows that
bracket.

* `InBody` -- what is read of the body of a class does not depend on what follows it;
* `inBody_token` -- the tokens of a clear body;
* `inClass_members`, `inClass_readClass` -- its members, and the class.
-/

namespace Highlight.Regex

open Pattern

/-! ## 1. Bodies -/

theorem classIsClear_pair {d : Char} {cs : List Char} (h : classIsClear ('\\' :: d :: cs) = true) :
    (d = 'c' → cs ≠ []) ∧ classIsClear cs = true := by
  by_cases hc : d = 'c' ∧ cs = []
  · obtain ⟨rfl, rfl⟩ := hc
    cases h
  · refine ⟨fun hd hn => hc ⟨hd, hn⟩, ?_⟩
    rw [classIsClear] at h
    · exact h
    · rintro rfl rfl
      exact hc ⟨rfl, rfl⟩

theorem classIsClear_member {c : Char} {cs : List Char} (hc : c ≠ '\\')
    (h : classIsClear (c :: cs) = true) : c ≠ '[' ∧ c ≠ ']' ∧ classIsClear cs = true := by
  refine ⟨?_, ?_, ?_⟩
  · rintro rfl
    cases h
  · rintro rfl
    cases h
  · unfold classIsClear at h
    split at h <;> simp_all

theorem classIsClear_drop {u : List Char} (hu : ∀ c ∈ u, c ≠ '\\') {w : List Char}
    (h : classIsClear (u ++ w) = true) : classIsClear w = true := by
  induction u with
  | nil => exact h
  | cons c u ih =>
    exact ih (fun d hd => hu d (List.mem_cons_of_mem c hd))
      (classIsClear_member (hu c (by simp)) h).2.2

/-- Up to the next escape or to its end a body has no backslash. -/
theorem exists_run (body : List Char) :
    ∃ u w, body = u ++ w ∧ (∀ c ∈ u, c ≠ '\\') ∧ ∀ r, Stops (w ++ ']' :: r) := by
  induction body with
  | nil =>
    refine ⟨[], [], rfl, by simp, fun r c hc => ?_⟩
    cases hc
    exact .inr (.inr (.inl rfl))
  | cons c cs ih =>
    by_cases hc : c = '\\'
    · subst hc
      refine ⟨[], '\\' :: cs, rfl, by simp, fun r c hc => ?_⟩
      cases hc
      exact .inl rfl
    · obtain ⟨u, w, rfl, hu, hw⟩ := ih
      refine ⟨c :: u, w, rfl, ?_, hw⟩
      intro d hd
      rcases List.mem_cons.mp hd with rfl | hd
      · exact hc
      · exact hu d hd

/-- Of the body of a class `a` is read and `after` remains with what follows the class; that comes
    out so whatever follows. -/
def InBody {α : Type} (f : List Char → Except Fault (α × List Char)) (body : List Char)
    (r : List Char) (a : α) (after : List Char) : Prop :=
  ∃ rest, after = rest ++ ']' :: r ∧ classIsClear rest = true ∧ rest.length ≤ body.length ∧
    ∀ r', f (body ++ ']' :: r') = .ok (a, rest ++ ']' :: r')

/-- What is read without looking beyond a stop is read inside the body. -/
theorem inBody_read {α : Type} {f : List Char → Except Fault (Option (α × List Char))}
    (happ : ∀ u v, Stops v → f (u ++ v) = (f u).map (Option.map fun r => (r.1, r.2 ++ v)))
    (hsuf : ∀ u a w, f u = .ok (some (a, w)) → w <:+ u) {body r after : List Char} {a : α}
    (hb : classIsClear body = true) (h : f (body ++ ']' :: r) = .ok (some (a, after))) :
    ∃ rest, after = rest ++ ']' :: r ∧ classIsClear rest = true ∧ rest.length ≤ body.length ∧
      ∀ r', f (body ++ ']' :: r') = .ok (some (a, rest ++ ']' :: r')) := by
  obtain ⟨u, w, rfl, hu, hw⟩ := exists_run body
  rw [List.append_assoc, happ u _ (hw r)] at h
  cases hf : f u with
  | error e => rw [hf] at h; cases h
  | ok x =>
    rw [hf] at h
    cases x with
    | none => cases h
    | some x =>
      obtain ⟨b, z⟩ := x
      cases h
      obtain ⟨y, rfl⟩ := hsuf _ _ _ hf
      refine ⟨z ++ w, by rw [List.append_assoc], ?_, by simp, fun r' => ?_⟩
      · rw [List.append_assoc] at hb
        exact classIsClear_drop (fun c hc => hu c (List.mem_append_left z hc)) hb
      · rw [List.append_assoc, happ _ _ (hw r'), hf, List.append_assoc]
        rfl

theorem none_in_body {α : Type} {f : List Char → Except Fault (Option (α × List Char))}
    (happ : ∀ u v, Stops v → f (u ++ v) = (f u).map (Option.map fun r => (r.1, r.2 ++ v)))
    {body r : List Char} (h : f (body ++ ']' :: r) = .ok none) (r' : List Char) :
    f (body ++ ']' :: r') = .ok none := by
  obtain ⟨u, w, rfl, _, hw⟩ := exists_run body
  rw [List.append_assoc, happ u _ (hw _)] at h ⊢
  cases hf : f u with
  | error e => rw [hf] at h; cases h
  | ok x =>
    rw [hf] at h
    cases x with
    | none => rfl
    | some x => cases h

theorem inBody_leadingNumber {base : Nat} {isDigit : Char → Bool}
    (hd : ∀ v, Stops v → ∀ c, v.head? = some c → isDigit c = false) {most n : Nat}
    {body r : List Char} (hb : classIsClear body = true) :
    InBody (fun cs => .ok (leadingNumber base isDigit most n cs)) body r
      (leadingNumber base isDigit most n (body ++ ']' :: r)).1
      (leadingNumber base isDigit most n (body ++ ']' :: r)).2 := by
  have h := inBody_read (f := fun cs => .ok (some (leadingNumber base isDigit most n cs)))
    (fun u v hv => by rw [leadingNumber_append (hd v hv)]; rfl)
    (fun u a w h => by
      simp only [Except.ok.injEq, Option.some.injEq] at h
      have hs := @suffix_leadingNumber base isDigit most n u
      rw [h] at hs
      exact hs) (r := r) hb rfl
  obtain ⟨rest, h1, h2, h3, h4⟩ := h
  refine ⟨rest, h1, h2, h3, fun r' => ?_⟩
  have := h4 r'
  simp only [Except.ok.injEq, Option.some.injEq] at this ⊢
  exact this

/-! ## 2. Tokens -/

theorem readByte_octal_class {d : Char} (hd : isOctalDigit d = true) (hx : d ≠ 'x')
    (cs : List Char) :
    readByte ('\\' :: d :: cs) =
      if 0xFF < (leadingNumber 8 isOctalDigit 3 0 (d :: cs)).1 then .error .numberTooBig
      else .ok (some ((leadingNumber 8 isOctalDigit 3 0 (d :: cs)).1, .octal,
        (leadingNumber 8 isOctalDigit 3 0 (d :: cs)).2)) := by
  simp [readByte, hd, hx]

theorem readByte_none {d : Char} (hd : isOctalDigit d = false) (hx : d ≠ 'x') (cs : List Char) :
    readByte ('\\' :: d :: cs) = .ok none := by
  simp [readByte, hd, hx]

theorem readByte_unescaped {cs : List Char} (h : cs.head? ≠ some '\\') :
    readByte cs = .ok none := by
  unfold readByte
  split
  · exact absurd rfl h
  · exact absurd rfl h
  · rfl

theorem append_bracket_ne_nil (body r : List Char) : body ++ ']' :: r ≠ [] := by simp

theorem readByte_braced {cs : List Char} (hne : cs ≠ []) {r : Char × List Char}
    (hb : readBraced cs = .ok (some r)) : readByte ('\\' :: 'x' :: cs) = .ok none := by
  cases cs with
  | nil => exact absurd rfl hne
  | cons c cs =>
    rw [readByte, hb]
    rfl

theorem readByte_refused {cs : List Char} (hne : cs ≠ []) {e : Fault}
    (hb : readBraced cs = .error e) : readByte ('\\' :: 'x' :: cs) = .error e := by
  cases cs with
  | nil => exact absurd rfl hne
  | cons c cs =>
    rw [readByte, hb]
    rfl

/-- A byte in a class. -/
theorem inBody_readByte {d : Char} {body r : List Char} (hb : classIsClear body = true)
    {x : Option (Nat × ByteForm × List Char)}
    (h : readByte ('\\' :: d :: (body ++ ']' :: r)) = .ok x) :
    (x = none ∧ ∀ r', readByte ('\\' :: d :: (body ++ ']' :: r')) = .ok none) ∨
      ∃ b f rest, x = some (b, f, rest ++ ']' :: r) ∧ classIsClear rest = true ∧
        rest.length ≤ body.length ∧
        ∀ r', readByte ('\\' :: d :: (body ++ ']' :: r')) =
          .ok (some (b, f, rest ++ ']' :: r')) := by
  by_cases hx : d = 'x'
  · subst hx
    cases hbr : readBraced (body ++ ']' :: r) with
    | error e =>
      rw [readByte_refused (append_bracket_ne_nil _ _) hbr] at h
      cases h
    | ok y =>
      cases y with
      | some y =>
        obtain ⟨c, after⟩ := y
        rw [readByte_braced (append_bracket_ne_nil _ _) hbr] at h
        cases h
        obtain ⟨rest, _, _, _, hall⟩ := inBody_read (fun u _ hv => readBraced_append hv u)
          (fun _ _ _ h => suffix_readBraced h) hb hbr
        exact .inl ⟨rfl, fun r' => readByte_braced (append_bracket_ne_nil _ _) (hall r')⟩
      | none =>
        have hnone := none_in_body (fun u _ hv => readBraced_append hv u) hbr
        rw [readByte_hex (append_bracket_ne_nil _ _) hbr] at h
        cases h
        obtain ⟨rest, h1, h2, h3, h4⟩ :=
          @inBody_leadingNumber 16 Unicode.isHexDigit (fun _ hv => stops_no_hex hv) 2 0 _ r hb
        refine .inr ⟨_, .hex, rest, by rw [h1], h2, h3, fun r' => ?_⟩
        have h4' := h4 r'
        simp only [Except.ok.injEq] at h4'
        rw [readByte_hex (append_bracket_ne_nil _ _) (hnone r'), h4']
  · cases hoct : isOctalDigit d with
    | false =>
      rw [readByte_none hoct hx] at h
      cases h
      exact .inl ⟨rfl, fun r' => readByte_none hoct hx _⟩
    | true =>
      obtain ⟨rest, h1, h2, h3, h4⟩ := @inBody_leadingNumber 8 isOctalDigit
        (fun _ hv => stops_no_octal hv) 2 (0 * 8 + hexValue d) _ r hb
      have hstep : ∀ cs, leadingNumber 8 isOctalDigit 3 0 (d :: cs) =
          leadingNumber 8 isOctalDigit 2 (0 * 8 + hexValue d) cs := by
        intro cs
        rw [leadingNumber, if_pos hoct]
      rw [readByte_octal_class hoct hx, hstep] at h
      split at h
      · cases h
      · rename_i hsmall
        cases h
        refine .inr ⟨_, .octal, rest, by rw [h1], h2, h3, fun r' => ?_⟩
        have h4' := h4 r'
        simp only [Except.ok.injEq] at h4'
        rw [readByte_octal_class hoct hx, hstep, h4', if_neg hsmall]

/-- Bytes that go on with a character, in a class. -/
theorem inBody_furtherBytes (form : Option ByteForm) : ∀ (n : Nat) {body r : List Char}
    {bs : List Nat} {after : List Char}, classIsClear body = true →
    furtherBytes form n (body ++ ']' :: r) = .ok (bs, after) →
    InBody (furtherBytes form n) body r bs after
  | 0, body, r, bs, after, hb, h => by
      cases h
      exact ⟨body, rfl, hb, Nat.le_refl _, fun _ => rfl⟩
  | n + 1, body, r, bs, after, hb, h => by
      have hunescaped : readByte (body ++ ']' :: r) ≠ .ok none := by
        intro hn
        rw [furtherBytes, hn] at h
        cases h
      cases body with
      | nil => exact absurd (readByte_unescaped (by simp)) hunescaped
      | cons c cs =>
        by_cases hc : c = '\\'
        · subst hc
          cases cs with
          | nil => cases hb
          | cons d cs =>
            simp only [List.cons_append] at h hunescaped
            cases hx : readByte ('\\' :: d :: (cs ++ ']' :: r)) with
            | error e => rw [furtherBytes, hx] at h; cases h
            | ok x =>
              rcases inBody_readByte (classIsClear_pair hb).2 hx with ⟨rfl, _⟩ | hbyte
              · exact absurd hx hunescaped
              obtain ⟨b, f, rest, rfl, hrest, hlen, hall⟩ := hbyte
              by_cases hf : form.all (· == f) = true
              · rw [furtherBytes_step hx hf] at h
                cases hm : furtherBytes form n (rest ++ ']' :: r) with
                | error e => rw [hm] at h; cases h
                | ok y =>
                  obtain ⟨more, w⟩ := y
                  rw [hm] at h
                  cases h
                  obtain ⟨rest', rfl, h2, h3, h4⟩ := inBody_furtherBytes form n hrest hm
                  refine ⟨rest', rfl, h2, ?_, fun r' => ?_⟩
                  · simp only [List.length_cons]
                    omega
                  · rw [List.cons_append, List.cons_append, furtherBytes_step (hall r') hf, h4 r']
                    rfl
              · rw [furtherBytes, hx] at h
                simp only [bind, Except.bind, hf] at h
                cases h
        · exact absurd (readByte_unescaped (by simpa using hc)) hunescaped

/-- What escaped bytes write in a class. -/
theorem inBody_readBytes {form : Option ByteForm} {b : Nat} {body r : List Char} {w : Written}
    {after : List Char} (hb : classIsClear body = true)
    (h : readBytes form b (body ++ ']' :: r) = .ok (w, after)) :
    InBody (readBytes form b) body r w after := by
  unfold readBytes at h
  cases hf : furtherBytes form (bytesAfter b) (body ++ ']' :: r) with
  | error e => rw [hf] at h; cases h
  | ok x =>
    obtain ⟨more, v⟩ := x
    obtain ⟨rest, rfl, h2, h3, h4⟩ := inBody_furtherBytes form _ hb hf
    rw [hf] at h
    simp only [bind, Except.bind] at h
    split at h
    · cases h
    · rename_i hany
      cases h
      refine ⟨rest, rfl, h2, h3, fun r' => ?_⟩
      unfold readBytes
      rw [h4 r']
      simp only [bind, Except.bind, hany]
      rfl

/-- What an escape writes in a class. -/
theorem inBody_readEscape : ∀ (d : Char) (body : List Char) {r : List Char} {c : Char}
    {after : List Char}, classIsClear ('\\' :: d :: body) = true →
    readEscape (d :: (body ++ ']' :: r)) = .ok (c, after) →
    InBody (fun cs => readEscape (d :: cs)) body r c after := by
  intro d body
  induction h : body.length using Nat.strongRecOn generalizing d body with
  | ind n ih =>
    intro r c after hcl hr
    obtain ⟨hne, hb⟩ := classIsClear_pair hcl
    by_cases hc : d = 'c'
    · subst hc
      cases body with
      | nil => exact absurd rfl (hne rfl)
      | cons e more =>
        by_cases he : e = '\\'
        · subst he
          cases more with
          | nil => cases hb
          | cons f more =>
            have hm := classIsClear_pair hb
            simp only [List.cons_append, readEscape] at hr
            cases hin : readEscape (f :: (more ++ ']' :: r)) with
            | error x => rw [hin] at hr; cases hr
            | ok y =>
              obtain ⟨b, w⟩ := y
              obtain ⟨rest, rfl, h2, h3, h4⟩ := ih more.length
                (by simp only [List.length_cons] at h; omega) f more rfl hb hin
              rw [hin] at hr
              simp only [bind, Except.bind] at hr
              cases hch : charOf (b.toNat &&& 0x9F) with
              | error x => rw [hch] at hr; cases hr
              | ok b' =>
                rw [hch] at hr
                cases hr
                refine ⟨rest, rfl, h2, ?_, fun r' => ?_⟩
                · simp only [List.length_cons]
                  omega
                · simp only [List.cons_append, readEscape]
                  have h4' := h4 r'
                  simp only at h4'
                  rw [h4']
                  simp only [bind, Except.bind, hch]
                  rfl
        · obtain ⟨_, _, hmore⟩ := classIsClear_member he hb
          simp only [List.cons_append] at hr
          by_cases hq : e = '?'
          · subst hq
            cases hr
            exact ⟨more, rfl, hmore, by simp, fun _ => rfl⟩
          · rw [readEscape_control hq he] at hr
            cases hch : charOf (e.toNat &&& 0x9F) with
            | error x => rw [hch] at hr; cases hr
            | ok b =>
              rw [hch] at hr
              cases hr
              refine ⟨more, rfl, hmore, by simp, fun r' => ?_⟩
              simp only [List.cons_append]
              rw [readEscape_control hq he, hch]
              rfl
    · rw [readEscape_other hc] at hr
      cases hr
      exact ⟨body, rfl, hb, Nat.le_refl _, fun r' => readEscape_other hc _⟩

/-- Whether a token is a part of the class it stands in. -/
def ClassToken.isMember : ClassToken → Bool
  | .dash | .both | .value _ _ | .set _ => true
  | .finish | .close | .inner => false

/-- The code point in braces that a letter announces, if it is the right one. -/
def bracedAfter (d : Char) (cs : List Char) : Except Fault (Option (Char × List Char)) :=
  if d == 'x' then readBraced cs else .ok none

/-- Whether a letter announces a property. -/
def announcesProperty (d : Char) (cs : List Char) : Prop :=
  (d = 'p' ∨ d = 'P') ∧ cs.head? = some '\x7b'

section Tokens

variable {d : Char} {cs : List Char} (hd : classEscape? d = none) (hp : ¬ announcesProperty d cs)

include hd hp

theorem escapedClassToken_eq :
    escapedClassToken (d :: cs) =
      (bracedAfter d cs).bind fun braced =>
        (readByte ('\\' :: d :: cs)).bind fun byte =>
          braced.elim
            (byte.elim
              ((readEscape (d :: cs)).map fun r => (.value (.char r.1) false, r.2))
              fun b => (readBytes (some b.2.1) b.1 b.2.2).map fun r => (.value r.1 false, r.2))
            fun c => .ok (.value (.char c.1) false, c.2) := by
  unfold escapedClassToken
  simp only [hd]
  split
  · exact absurd ⟨.inl rfl, rfl⟩ hp
  · exact absurd ⟨.inr rfl, rfl⟩ hp
  · show (bracedAfter d cs).bind _ = _
    cases bracedAfter d cs with
    | error e => rfl
    | ok braced =>
      simp only [Except.bind]
      cases readByte ('\\' :: d :: cs) with
      | error e => rfl
      | ok byte =>
        cases braced with
        | some c => rfl
        | none =>
          cases byte with
          | some b =>
            obtain ⟨b, f, w⟩ := b
            show (readBytes (some f) b w).bind _ = _
            simp only [Option.elim]
            cases readBytes (some f) b w <;> rfl
          | none =>
            show (readEscape (d :: cs)).bind _ = _
            simp only [Option.elim]
            cases readEscape (d :: cs) <;> rfl

end Tokens

theorem escapedClassToken_property {d : Char} (hd : d = 'p' ∨ d = 'P') (cs : List Char) :
    escapedClassToken (d :: '\x7b' :: cs) =
      (readProperty (d == 'P') cs).map fun r => (.set r.1, r.2) := by
  rcases hd with rfl | rfl
  · show (readProperty false cs).bind _ = _
    cases hr : readProperty false cs with
    | error e => rw [show (('p' == 'P') : Bool) = false from rfl, hr]; rfl
    | ok r => rw [show (('p' == 'P') : Bool) = false from rfl, hr]; rfl
  · show (readProperty true cs).bind _ = _
    cases hr : readProperty true cs with
    | error e => rw [show (('P' == 'P') : Bool) = true from rfl, hr]; rfl
    | ok r => rw [show (('P' == 'P') : Bool) = true from rfl, hr]; rfl

/-- A name without a closing bracket ends before the one that closes the class. -/
theorem append_bracket {body r name after : List Char} (hn : ∀ c ∈ name, c ≠ ']')
    (h : body ++ ']' :: r = name ++ after) : ∃ rest, body = name ++ rest ∧ after = rest ++ ']' :: r := by
  rcases List.append_eq_append_iff.mp h with ⟨x, rfl, hx⟩ | ⟨x, rfl, rfl⟩
  · cases x with
    | nil => exact ⟨[], by simp, hx.symm⟩
    | cons c x =>
      rw [List.cons_append, List.cons.injEq] at hx
      exact absurd hx.1.symm (hn c (by simp))
  · exact ⟨x, rfl, rfl⟩

theorem eq_of_bracedAfter {d : Char} {cs : List Char} {r : Char × List Char}
    (h : bracedAfter d cs = .ok (some r)) : d = 'x' := by
  unfold bracedAfter at h
  split at h
  · rename_i hd
    simpa using hd
  · cases h

theorem inBody_bracedAfter {d : Char} {body r after : List Char} {c : Char}
    (hb : classIsClear body = true)
    (h : bracedAfter d (body ++ ']' :: r) = .ok (some (c, after))) :
    ∃ rest, after = rest ++ ']' :: r ∧ classIsClear rest = true ∧ rest.length ≤ body.length ∧
      ∀ r', readBraced (body ++ ']' :: r') = .ok (some (c, rest ++ ']' :: r')) := by
  have hx := eq_of_bracedAfter h
  subst hx
  exact inBody_read (fun u _ hv => readBraced_append hv u) (fun _ _ _ h => suffix_readBraced h) hb h

theorem bracedAfter_none {d : Char} {body r : List Char}
    (h : bracedAfter d (body ++ ']' :: r) = .ok none) (r' : List Char) :
    bracedAfter d (body ++ ']' :: r') = .ok none := by
  unfold bracedAfter at h ⊢
  split at h
  · rename_i hd
    rw [if_pos hd]
    exact none_in_body (fun u _ hv => readBraced_append hv u) h r'
  · rename_i hd
    rw [if_neg hd]

section Escaped

variable {d : Char} {body r : List Char} {token : ClassToken} {after : List Char}

/-- A property that is named in a clear body ends in it. -/
theorem inBody_announced (hb : classIsClear body = true)
    (hp : announcesProperty d (body ++ ']' :: r))
    (h : escapedClassToken (d :: (body ++ ']' :: r)) = .ok (token, after)) :
    token.isMember = true ∧ InBody (fun cs => escapedClassToken (d :: cs)) body r token after := by
  obtain ⟨hp, hopen⟩ := hp
  cases body with
  | nil => cases hopen
  | cons c cs =>
    cases hopen
    obtain ⟨_, _, hcs⟩ := classIsClear_member (by decide) hb
    rw [List.cons_append, escapedClassToken_property hp] at h
    cases hr : readProperty (d == 'P') (cs ++ ']' :: r) with
    | error e => rw [hr] at h; cases h
    | ok x =>
      obtain ⟨t, w⟩ := x
      rw [hr] at h
      cases h
      obtain ⟨name, happ, hname, hread⟩ := readProperty_eq_ok hr
      obtain ⟨rest, rfl, rfl⟩ := append_bracket (fun c hc => (hname c hc).2.1) happ
      refine ⟨rfl, rest, rfl, classIsClear_drop ?_ hcs, ?_, fun r' => ?_⟩
      · rintro c hc rfl
        exact absurd (hname _ hc).1 (by decide)
      · simp only [List.length_cons, List.length_append]
        omega
      · simp only [List.cons_append, List.append_assoc]
        rw [escapedClassToken_property hp, hread]
        rfl

/-- A character or an octet that is written in a clear body ends in it. -/
theorem inBody_spelled (hcl : classIsClear ('\\' :: d :: body) = true)
    (hd : classEscape? d = none) (hp : ¬ announcesProperty d (body ++ ']' :: r))
    (h : escapedClassToken (d :: (body ++ ']' :: r)) = .ok (token, after)) :
    token.isMember = true ∧ InBody (fun cs => escapedClassToken (d :: cs)) body r token after := by
  obtain ⟨_, hb⟩ := classIsClear_pair hcl
  have hp' : ∀ r', ¬ announcesProperty d (body ++ ']' :: r') := by
    rintro r' ⟨h1, h2⟩
    cases body with
    | nil => cases h2
    | cons c cs => exact hp ⟨h1, h2⟩
  rw [escapedClassToken_eq hd hp] at h
  cases hbr : bracedAfter d (body ++ ']' :: r) with
  | error e => rw [hbr] at h; cases h
  | ok braced =>
    cases hby : readByte ('\\' :: d :: (body ++ ']' :: r)) with
    | error e => rw [hbr, hby] at h; cases h
    | ok byte =>
      rw [hbr, hby] at h
      cases braced with
      | some x =>
        obtain ⟨c, w⟩ := x
        cases h
        obtain ⟨rest, rfl, h2, h3, h4⟩ := inBody_bracedAfter hb hbr
        refine ⟨rfl, rest, rfl, h2, h3, fun r' => ?_⟩
        have hx := eq_of_bracedAfter hbr
        subst hx
        have hx' : bracedAfter 'x' (body ++ ']' :: r') = .ok (some (c, rest ++ ']' :: r')) := h4 r'
        simp only [escapedClassToken_eq hd (hp' r'), hx',
          readByte_braced (append_bracket_ne_nil _ _) (h4 r')]
        rfl
      | none =>
        have hnone := bracedAfter_none hbr
        rcases inBody_readByte hb hby with ⟨rfl, hall⟩ | ⟨b, f, rest, rfl, h2, h3, hall⟩
        · cases hesc : readEscape (d :: (body ++ ']' :: r)) with
          | error e => simp only [Except.bind, Option.elim, hesc] at h; cases h
          | ok x =>
            obtain ⟨c, w⟩ := x
            obtain ⟨rest, rfl, h2, h3, h4⟩ := inBody_readEscape d body hcl hesc
            simp only [Except.bind, Option.elim, hesc] at h
            cases h
            refine ⟨rfl, rest, rfl, h2, h3, fun r' => ?_⟩
            have h4' := h4 r'
            simp only at h4'
            simp only [escapedClassToken_eq hd (hp' r'), hnone r', hall r', Except.bind,
              Option.elim, h4']
            rfl
        · cases hbs : readBytes (some f) b (rest ++ ']' :: r) with
          | error e => simp only [Except.bind, Option.elim, hbs] at h; cases h
          | ok x =>
            obtain ⟨w, v⟩ := x
            obtain ⟨rest', rfl, h2', h3', h4'⟩ := inBody_readBytes h2 hbs
            simp only [Except.bind, Option.elim, hbs] at h
            cases h
            refine ⟨rfl, rest', rfl, h2', Nat.le_trans h3' h3, fun r' => ?_⟩
            simp only [escapedClassToken_eq hd (hp' r'), hnone r', hall r', Except.bind,
              Option.elim, h4' r']
            rfl

/-- **What a backslash announces in a clear body ends in it.** -/
theorem inBody_escapedClassToken (hcl : classIsClear ('\\' :: d :: body) = true)
    (h : escapedClassToken (d :: (body ++ ']' :: r)) = .ok (token, after)) :
    token.isMember = true ∧ InBody (fun cs => escapedClassToken (d :: cs)) body r token after := by
  obtain ⟨_, hb⟩ := classIsClear_pair hcl
  cases hd : classEscape? d with
  | some x =>
    obtain ⟨cls, negated⟩ := x
    have hall : ∀ cs, escapedClassToken (d :: cs) = .ok (.set (classSet cls negated), cs) := by
      intro cs
      simp only [escapedClassToken, hd]
    rw [hall] at h
    cases h
    exact ⟨rfl, body, rfl, hb, Nat.le_refl _, fun r' => hall _⟩
  | none =>
    by_cases hp : announcesProperty d (body ++ ']' :: r)
    · exact inBody_announced hb hp h
    · exact inBody_spelled hcl hd hp h

end Escaped

/-- **Up to its end a clear body has one member after another.** -/
theorem inBody_token {body r : List Char} (hb : classIsClear body = true) (hne : body ≠ [])
    {token : ClassToken} {after : List Char}
    (h : nextClassToken (body ++ ']' :: r) = .ok (token, after)) :
    token.isMember = true ∧ ∃ rest, after = rest ++ ']' :: r ∧ classIsClear rest = true ∧
      rest.length < body.length ∧
      ∀ r', nextClassToken (body ++ ']' :: r') = .ok (token, rest ++ ']' :: r') := by
  cases body with
  | nil => exact absurd rfl hne
  | cons c cs =>
    by_cases hesc : c = '\\'
    · subst hesc
      cases cs with
      | nil => cases hb
      | cons d cs =>
        obtain ⟨hm, rest, h1, h2, h3, h4⟩ := inBody_escapedClassToken hb h
        refine ⟨hm, rest, h1, h2, ?_, h4⟩
        simp only [List.length_cons]
        omega
    obtain ⟨hopen, hclose, hcs⟩ := classIsClear_member hesc hb
    by_cases hdash : c = '-'
    · subst hdash
      cases h
      exact ⟨rfl, cs, rfl, hcs, by simp, fun _ => rfl⟩
    by_cases hboth : c = '&' ∧ cs.head? = some '&'
    · obtain ⟨rfl, hhead⟩ := hboth
      cases cs with
      | nil => cases hhead
      | cons d cs =>
        cases hhead
        cases h
        refine ⟨rfl, cs, rfl, (classIsClear_member (by decide) hcs).2.2, ?_, fun _ => rfl⟩
        simp only [List.length_cons]
        omega
    · have hall : ∀ r', nextClassToken (c :: (cs ++ ']' :: r')) =
          .ok (.value (.char c) true, cs ++ ']' :: r') := by
        intro r'
        have hamp : ∀ w, c = '&' → cs ++ ']' :: r' ≠ '&' :: w := by
          rintro w rfl he
          cases cs with
          | nil => cases he
          | cons d cs =>
            rw [List.cons_append, List.cons.injEq] at he
            exact hboth ⟨rfl, by rw [he.1]; rfl⟩
        unfold nextClassToken
        split <;> simp_all
      rw [List.cons_append, hall] at h
      cases h
      exact ⟨rfl, cs, rfl, hcs, by simp, hall⟩

/-! ## 3. Classes -/

theorem classToken_eq (s : Progress) :
    classToken s = (nextClassToken s.rest).map fun r => (r.1, { s with rest := r.2 }) := by
  unfold classToken
  rw [reading_bind_eq rest_eq]
  cases nextClassToken s.rest <;> rfl

theorem peekClassToken_eq (s : Progress) :
    peekClassToken s = (nextClassToken s.rest).map fun r => (r.1, s) := by
  unfold peekClassToken
  rw [reading_bind_eq rest_eq]
  cases nextClassToken s.rest <;> rfl

theorem classToken_ok {s s' : Progress} {token : ClassToken}
    (h : classToken s = .ok (token, s')) :
    ∃ cs, nextClassToken s.rest = .ok (token, cs) ∧ s' = { s with rest := cs } := by
  rw [classToken_eq] at h
  cases hn : nextClassToken s.rest with
  | error e => rw [hn] at h; cases h
  | ok r => rw [hn] at h; cases h; exact ⟨r.2, rfl, rfl⟩

theorem classToken_of_next {s : Progress} {token : ClassToken} {cs : List Char}
    (h : nextClassToken s.rest = .ok (token, cs)) :
    classToken s = .ok (token, { s with rest := cs }) := by
  rw [classToken_eq, h]
  rfl

/-- The token that comes next in a body does not depend on what follows the class. -/
theorem next_in_body {body r : List Char} (hb : classIsClear body = true) {token : ClassToken}
    {after : List Char} (h : nextClassToken (body ++ ']' :: r) = .ok (token, after))
    (r' : List Char) : ∃ after', nextClassToken (body ++ ']' :: r') = .ok (token, after') := by
  by_cases hne : body = []
  · subst hne
    cases h
    exact ⟨r', rfl⟩
  · obtain ⟨_, rest, _, _, _, hall⟩ := inBody_token hb hne h
    exact ⟨_, hall r'⟩

/-- What the next members of a class come to, whatever is to follow the class, at whatever depth,
    as long as there are steps enough. -/
def InClass (x : Nat → Nat → Reading CharSet) (s : Progress) (body r : List Char) (t : CharSet)
    (s' : Progress) : Prop :=
  s' = { s with rest := r } ∧
    ∀ fuel depth s2 r', body.length + 1 ≤ fuel → s2.rest = body ++ ']' :: r' →
      x fuel depth s2 = .ok (t, { s2 with rest := r' })

section Members

variable {fuel depth : Nat} {pending : Pending} {acc : CharSet} {before : Option CharSet}

theorem readMembers_close :
    readMembers (fuel + 1) depth pending acc before .close =
      (return meet before (pending.settle acc) : Reading _) := by
  rw [readMembers]

theorem readMembers_value (w : Written) (bare : Bool) :
    readMembers (fuel + 1) depth pending acc before (.value w bare) =
      (do
        let p ← pending.take acc w
        readMembers fuel depth p.1 p.2 before (← classToken)) := by
  rw [readMembers]

theorem readMembers_set (t : CharSet) :
    readMembers (fuel + 1) depth pending acc before (.set t) =
      (do
        let p ← pending.takeSet acc t
        readMembers fuel depth p.1 p.2 before (← classToken)) := by
  rw [readMembers]

theorem readMembers_both :
    readMembers (fuel + 1) depth pending acc before .both =
      (do readMembers fuel depth .start .empty (some (meet before (pending.settle acc)))
            (← classToken)) := by
  rw [readMembers]

/-- The token behind a hyphen, where it matters. -/
def behindDash (pending : Pending) : Reading ClassToken :=
  match pending with
  | .range _ => pure .finish
  | _ => peekClassToken

theorem readMembers_dash :
    readMembers (fuel + 1) depth pending acc before .dash =
      (do
        let next ← behindDash pending
        let p ← pending.takeDash acc next
        readMembers fuel depth p.1 p.2 before (← classToken)) := by
  cases pending <;> rw [readMembers] <;> first | rfl | (intro _ h; cases h)

/-- What follows a hyphen is looked at only, and is the same whatever follows the class. -/
theorem behindDash_in_body {pending : Pending} {rest r : List Char} {s s2 : Progress}
    {next : ClassToken} (hrest : classIsClear rest = true)
    (h : behindDash pending { s with rest := rest ++ ']' :: r } = .ok (next, s2)) :
    ∀ s3 r', s3.rest = rest ++ ']' :: r' → behindDash pending s3 = .ok (next, s3) := by
  intro s3 r' hs3
  unfold behindDash at h ⊢
  split at h
  · cases h
    rfl
  · rw [peekClassToken_eq] at h ⊢
    cases hp : nextClassToken (rest ++ ']' :: r) with
    | error e => rw [hp] at h; cases h
    | ok x =>
      obtain ⟨after', hp'⟩ := next_in_body hrest hp r'
      rw [hp] at h
      cases h
      rw [hs3, hp']
      rfl

/-- What one token has done to the set is done whatever follows the class. -/
theorem inClass_token {body rest r : List Char} {p : Pending} {a : CharSet} {b : Option CharSet}
    {s s' : Progress} {t : CharSet} {token : ClassToken} (hlt : rest.length < body.length)
    (hall : ∀ r', nextClassToken (body ++ ']' :: r') = .ok (token, rest ++ ']' :: r'))
    (heq : ∀ fuel depth s2 r', s2.rest = rest ++ ']' :: r' →
      readMembers (fuel + 1) depth pending acc before token s2 =
        (classToken >>= readMembers fuel depth p a b) s2)
    (h : InClass (fun fuel depth => classToken >>= readMembers fuel depth p a b)
      { s with rest := rest ++ ']' :: r } rest r t s') :
    InClass (fun fuel depth => classToken >>= readMembers fuel depth pending acc before)
      s body r t s' := by
  obtain ⟨rfl, hread⟩ := h
  refine ⟨rfl, fun fuel' depth' s2 r' hf hs2 => ?_⟩
  obtain ⟨f, rfl⟩ : ∃ f, fuel' = f + 1 := ⟨fuel' - 1, by omega⟩
  show (classToken >>= readMembers (f + 1) depth' pending acc before) s2 = _
  rw [reading_bind_eq (classToken_of_next (by rw [hs2]; exact hall r')), heq f depth' _ r' rfl]
  exact hread f depth' _ r' (by omega) rfl

/-- The bracket that closes a class ends its members. -/
theorem inClass_close {r : List Char} {s s' : Progress} {t : CharSet}
    (h : readMembers (fuel + 1) depth pending acc before .close { s with rest := r } = .ok (t, s')) :
    InClass (fun fuel depth => classToken >>= readMembers fuel depth pending acc before)
      s [] r t s' := by
  rw [readMembers_close] at h
  cases h
  refine ⟨rfl, fun fuel' depth' s2 r' hf hs2 => ?_⟩
  obtain ⟨f, rfl⟩ : ∃ f, fuel' = f + 1 := ⟨fuel' - 1, by omega⟩
  show (classToken >>= readMembers (f + 1) depth' pending acc before) s2 = _
  have htoken : classToken s2 = .ok (.close, { s2 with rest := r' }) :=
    classToken_of_next (by rw [hs2]; rfl)
  rw [reading_bind_eq htoken, readMembers_close]
  rfl

/-- **The members of a clear class are the same whatever follows it.** -/
theorem inClass_members : ∀ (body : List Char) {fuel depth : Nat} {pending : Pending}
    {acc : CharSet} {before : Option CharSet} {s s' : Progress} {r : List Char} {t : CharSet},
    classIsClear body = true → s.rest = body ++ ']' :: r →
    (classToken >>= readMembers fuel depth pending acc before) s = .ok (t, s') →
    InClass (fun fuel depth => classToken >>= readMembers fuel depth pending acc before)
      s body r t s' := by
  intro body
  induction h : body.length using Nat.strongRecOn generalizing body with
  | ind n ih =>
    intro fuel depth pending acc before s s' r t hb hs hr
    obtain ⟨token, s1, ht, hr⟩ := reading_bind_ok hr
    obtain ⟨cs, hn, rfl⟩ := classToken_ok ht
    rw [hs] at hn
    cases fuel with
    | zero => rw [readMembers] at hr; cases hr
    | succ fuel =>
      by_cases hne : body = []
      · subst hne
        cases hn
        exact inClass_close hr
      · obtain ⟨hm, rest, rfl, hrest, hlt, hall⟩ := inBody_token hb hne hn
        have hgo : ∀ (p : Pending) (a : CharSet) (b : Option CharSet),
            (∀ fuel depth s2 r', s2.rest = rest ++ ']' :: r' →
              readMembers (fuel + 1) depth pending acc before token s2 =
                (classToken >>= readMembers fuel depth p a b) s2) →
            InClass (fun fuel depth => classToken >>= readMembers fuel depth pending acc before)
              s body r t s' := by
          intro p a b heq
          rw [heq fuel depth _ r rfl] at hr
          exact inClass_token hlt hall heq
            (ih rest.length (by omega) rest rfl hrest rfl hr)
        cases token with
        | finish => cases hm
        | close => cases hm
        | inner => cases hm
        | both => exact hgo _ _ _ fun fuel depth s _ _ => by rw [readMembers_both]
        | value w bare =>
          cases hp : pending.take acc w with
          | error e =>
            rw [readMembers_value, hp] at hr
            cases hr
          | ok p =>
            refine hgo p.1 p.2 before fun fuel depth s _ _ => ?_
            rw [readMembers_value, reading_bind_eq (lift_eq hp)]
        | set t =>
          cases hp : pending.takeSet acc t with
          | error e =>
            rw [readMembers_set, hp] at hr
            cases hr
          | ok p =>
            refine hgo p.1 p.2 before fun fuel depth s _ _ => ?_
            rw [readMembers_set, reading_bind_eq (lift_eq hp)]
        | dash =>
          rw [readMembers_dash] at hr
          obtain ⟨next, s2, hnext, hr⟩ := reading_bind_ok hr
          have hdash := behindDash_in_body hrest hnext
          have hs2 : s2 = { s with rest := rest ++ ']' :: r } := by
            rw [hdash _ r rfl] at hnext
            cases hnext
            rfl
          cases hp : pending.takeDash acc next with
          | error e =>
            rw [hp] at hr
            cases hr
          | ok p =>
            refine hgo p.1 p.2 before fun fuel depth s3 r' hs3 => ?_
            rw [readMembers_dash, reading_bind_eq (hdash s3 r' hs3), reading_bind_eq (lift_eq hp)]

end Members

/-- The members of a class, from its first token on. -/
def readMembersFrom (negated : Bool) (fuel depth : Nat) : Reading (Bool × CharSet) := do
  let t ← classToken >>= readMembers fuel depth .start .empty none
  return (negated, t)

theorem inClass_membersFrom {negated : Bool} {fuel depth : Nat} {s s' : Progress}
    {body r : List Char} {x : Bool × CharSet} (hb : classIsClear body = true)
    (hs : s.rest = body ++ ']' :: r) (h : readMembersFrom negated fuel depth s = .ok (x, s')) :
    s' = { s with rest := r } ∧
      ∀ fuel' depth' s2 r', body.length + 1 ≤ fuel' → s2.rest = body ++ ']' :: r' →
        readMembersFrom negated fuel' depth' s2 = .ok (x, { s2 with rest := r' }) := by
  obtain ⟨t, s1, ht, h⟩ := reading_bind_ok h
  cases h
  obtain ⟨rfl, hall⟩ := inClass_members body hb hs ht
  refine ⟨rfl, fun fuel' depth' s2 r' hf hs2 => ?_⟩
  exact reading_bind_eq (hall fuel' depth' s2 r' hf hs2)

section Class

variable {fuel depth : Nat} {s s1 s2 : Progress} {token : ClassToken}

theorem readClass_deep (h : maxNesting ≤ depth) : readClass fuel depth s = .error .tooDeep := by
  cases fuel with
  | zero => rw [readClass]; rfl
  | succ fuel => rw [readClass, if_pos h]; rfl

theorem readClass_plain (hd : depth < maxNesting) (h : classToken s = .ok (token, s1))
    (hm : token.isMember = true) (hc : token ≠ .value (.char '^') true) :
    readClass (fuel + 1) depth s = readMembersFrom false fuel (depth + 1) s := by
  rw [readMembersFrom, bind_assoc, reading_bind_eq h, readClass, if_neg (by omega)]
  refine (reading_bind_eq h).trans ?_
  cases token with
  | close => cases hm
  | value w bare => simp only
  | _ => rfl

theorem readClass_caret (hd : depth < maxNesting)
    (h : classToken s = .ok (.value (.char '^') true, s1)) (h' : classToken s1 = .ok (token, s2))
    (hm : token.isMember = true) :
    readClass (fuel + 1) depth s = readMembersFrom true fuel (depth + 1) s1 := by
  rw [readMembersFrom, bind_assoc, reading_bind_eq h', readClass, if_neg (by omega)]
  refine (reading_bind_eq h).trans ((reading_bind_eq h').trans ?_)
  cases token with
  | close => cases hm
  | _ => rfl

/-- What is written with a backslash is not bare. -/
theorem not_bare_of_escaped {cs after : List Char} {w : Written}
    (h : escapedClassToken cs = .ok (.value w true, after)) : False := by
  cases cs with
  | nil => cases h
  | cons d cs =>
    cases hd : classEscape? d with
    | some x =>
      simp only [escapedClassToken, hd] at h
      cases h
    | none =>
      by_cases hp : announcesProperty d cs
      · obtain ⟨hp, hopen⟩ := hp
        obtain ⟨u, rfl⟩ := List.head?_eq_some_iff.mp hopen
        rw [escapedClassToken_property hp] at h
        cases hr : readProperty (d == 'P') u with
        | error e => rw [hr] at h; cases h
        | ok r => rw [hr] at h; cases h
      · rw [escapedClassToken_eq hd hp] at h
        cases hbr : bracedAfter d cs with
        | error e => rw [hbr] at h; cases h
        | ok braced =>
          cases hby : readByte ('\\' :: d :: cs) with
          | error e => rw [hbr, hby] at h; cases h
          | ok byte =>
            simp only [hbr, hby, Except.bind] at h
            cases braced with
            | some c => cases h
            | none =>
              cases byte with
              | some b =>
                simp only [Option.elim] at h
                cases hbs : readBytes (some b.2.1) b.1 b.2.2 with
                | error e => rw [hbs] at h; cases h
                | ok r => rw [hbs] at h; cases h
              | none =>
                simp only [Option.elim] at h
                cases he : readEscape (d :: cs) with
                | error e => rw [he] at h; cases h
                | ok r => rw [he] at h; cases h

/-- Only the caret itself is a bare caret. -/
theorem caret_of_next {c : Char} {cs after : List Char}
    (h : nextClassToken (c :: cs) = .ok (.value (.char '^') true, after)) : c = '^' := by
  unfold nextClassToken at h
  split at h
  · cases h
  · cases h
  · cases h
  · exact (not_bare_of_escaped h).elim
  · split at h
    · split at h <;> cases h
    · cases h
  · cases h
  · cases h
  · rename_i he
    cases he
    cases h
    rfl

/-- **A class is read the same whatever follows it**, unless it stands too deep. -/
theorem inClass_readClass {body r : List Char} {x : Bool × CharSet} {s' : Progress}
    (hb : classIsClear body = true) (hne : body ≠ []) (hcaret : body ≠ ['^'])
    (hs : s.rest = body ++ ']' :: r) (h : readClass fuel depth s = .ok (x, s')) :
    s' = { s with rest := r } ∧
      ∀ fuel' depth' s2 r', body.length + 2 ≤ fuel' → depth' < maxNesting →
        s2.rest = body ++ ']' :: r' →
        readClass fuel' depth' s2 = .ok (x, { s2 with rest := r' }) := by
  have hd : depth < maxNesting := by
    refine Nat.lt_of_not_le fun hle => ?_
    rw [readClass_deep hle] at h
    cases h
  cases fuel with
  | zero => rw [readClass] at h; cases h
  | succ fuel =>
    cases body with
    | nil => exact absurd rfl hne
    | cons c cs =>
      by_cases hc : c = '^'
      · subst hc
        obtain ⟨_, _, hcs⟩ := classIsClear_member (by decide) hb
        have hcs' : cs ≠ [] := fun he => hcaret (by rw [he])
        have hfirst : ∀ s2 r', s2.rest = '^' :: cs ++ ']' :: r' →
            classToken s2 = .ok (.value (.char '^') true, { s2 with rest := cs ++ ']' :: r' }) :=
          fun s2 r' hs2 => classToken_of_next (by rw [hs2]; rfl)
        cases hn : nextClassToken (cs ++ ']' :: r) with
        | error e =>
          rw [readClass, if_neg (by omega)] at h
          obtain ⟨_, s1, h1, h⟩ := reading_bind_ok h
          rw [hfirst s r hs] at h1
          cases h1
          obtain ⟨_, s2, h2, _⟩ := reading_bind_ok h
          rw [classToken_eq, hn] at h2
          cases h2
        | ok y =>
          obtain ⟨token, after⟩ := y
          obtain ⟨hm, rest, rfl, _, _, hall⟩ := inBody_token hcs hcs' hn
          rw [readClass_caret hd (hfirst s r hs) (classToken_of_next hn) hm] at h
          obtain ⟨rfl, hall'⟩ := inClass_membersFrom hcs rfl h
          refine ⟨rfl, fun fuel' depth' s2 r' hf hd' hs2 => ?_⟩
          obtain ⟨f, rfl⟩ : ∃ f, fuel' = f + 1 := ⟨fuel' - 1, by omega⟩
          rw [readClass_caret hd' (hfirst s2 r' hs2) (classToken_of_next (hall r')) hm]
          simp only [List.length_cons] at hf
          exact hall' f _ _ r' (by omega) rfl
      · cases hn : nextClassToken (c :: cs ++ ']' :: r) with
        | error e =>
          rw [readClass, if_neg (by omega)] at h
          obtain ⟨_, s1, h1, _⟩ := reading_bind_ok h
          rw [classToken_eq, hs, hn] at h1
          cases h1
        | ok y =>
          obtain ⟨token, after⟩ := y
          obtain ⟨hm, rest, rfl, _, _, hall⟩ := inBody_token hb hne hn
          have hplain : token ≠ .value (.char '^') true := by
            rintro rfl
            exact hc (caret_of_next hn)
          rw [readClass_plain hd (classToken_of_next (hs ▸ hn)) hm hplain] at h
          obtain ⟨rfl, hall'⟩ := inClass_membersFrom hb hs h
          refine ⟨rfl, fun fuel' depth' s2 r' hf hd' hs2 => ?_⟩
          obtain ⟨f, rfl⟩ : ∃ f, fuel' = f + 1 := ⟨fuel' - 1, by omega⟩
          rw [readClass_plain hd' (classToken_of_next (by rw [hs2]; exact hall r')) hm hplain]
          exact hall' f _ s2 r' (by omega) hs2

end Class
end Highlight.Regex
