import Highlight.Proofs.Regex.Swept

/-!
# What has been read is passed

The grammar of patterns, looked over. Whatever a reader reads of a pattern, what it leaves is what is
left when the pattern is only looked over, and it has numbered the groups that are counted then. So
what ends a group for a reader is the parenthesis that closes it.

* `Past`, `Covers` -- from one place of a pattern to a later one, perhaps with a tree;
* `past_skipComments`, `past_readText`, `past_readEscaped` -- what has no groups;
* `sweep_readHead` -- the head of a group;
* `Covered`, `covered` -- **the grammar**, one lemma for each of its readers.
-/

namespace Highlight.Regex

open Pattern

/-! ## 1. From one place to a later one -/

/-- That a reader has come from `s` to `s'`, and has numbered `n` groups. -/
structure Past (n : Nat) (s s' : Progress) : Prop where
  groups : s'.groups = s.groups + n
  passes : Passes n s.rest s'.rest

/-- That a reader has come from `s` to `s'`, and has read a tree the groups of which are those that it
    has numbered. -/
def Covers (s : Progress) (a : Syntax) (s' : Progress) : Prop :=
  ∃ n, Past n s s' ∧ a.captures.map (·.1) = List.range' (s.groups + 1) n

section Past

variable {m n : Nat} {s s' s'' : Progress} {a b : Syntax}

theorem Past.refl (s : Progress) : Past 0 s s := ⟨rfl, .refl _⟩

theorem Past.trans (h : Past m s s') (h' : Past n s' s'') : Past (m + n) s s'' :=
  ⟨by rw [h'.groups, h.groups, Nat.add_assoc], h.passes.trans h'.passes⟩

/-- What is left behind a piece that has no groups. -/
theorem Past.goOn {cs : List Char} (h : Passes 0 s.rest cs) : Past 0 s { s with rest := cs } :=
  ⟨rfl, h⟩

theorem Past.covers (h : Past 0 s s') (ha : a.captures = []) : Covers s a s' :=
  ⟨0, h, by rw [ha]; rfl⟩

theorem range'_append_groups (k m n : Nat) :
    List.range' (k + 1) m ++ List.range' (k + m + 1) n = List.range' (k + 1) (m + n) := by
  have := @List.range'_append (k + 1) m n 1
  rwa [Nat.one_mul, Nat.add_right_comm] at this

/-- Two trees one behind the other. -/
theorem Covers.both (h : Covers s a s') (h' : Covers s' b s'') {c : Syntax}
    (hc : c.captures = a.captures ++ b.captures) : Covers s c s'' := by
  obtain ⟨m, hm, ha⟩ := h
  obtain ⟨n, hn, hb⟩ := h'
  refine ⟨m + n, hm.trans hn, ?_⟩
  rw [hc, List.map_append, ha, hb, hm.groups, range'_append_groups]

/-- A tree with the same groups, and nothing numbered behind it. -/
theorem Covers.extend (h : Covers s a s') (h' : Past 0 s' s'') (hb : b.captures = a.captures) :
    Covers s b s'' := by
  obtain ⟨n, hn, ha⟩ := h
  exact ⟨n, hn.trans h', by rw [hb, ha]⟩

theorem Past.before (h : Past 0 s s') (h' : Covers s' a s'') : Covers s a s'' := by
  obtain ⟨n, hn, ha⟩ := h'
  refine ⟨n, ?_, by rw [ha, h.groups, Nat.add_zero]⟩
  have := h.trans hn
  rwa [Nat.zero_add] at this

end Past

/-! ## 2. What has no groups -/

/-- A comment, from after its number sign on. -/
theorem leads_afterComment {cs after : List Char} (h : afterComment cs = .ok after) :
    Leads .comment cs .row after := by
  fun_induction afterComment cs with
  | case1 => cases h
  | case2 c cs ih =>
    refine fun depth groups => (sweep_next rfl _).trans ((sweep_next ?_ _).trans (ih h depth groups))
    exact congrArg (fun e => some (Sweep.mk .comment e depth groups)) (if_neg fun hc => hc.2 rfl)
  | case3 cs =>
    cases h
    exact leads_next (fun _ _ => rfl) _
  | case4 c cs hback hclose ih =>
    refine fun depth groups => (sweep_next ?_ _).trans (ih h depth groups)
    refine (if_neg fun hc => ?_).trans (if_neg hclose)
    cases cs with
    | nil => cases h
    | cons d cs => exact hback d cs hc rfl

/-- Comments are passed. -/
theorem passes_afterComments {fuel : Nat} {cs after : List Char}
    (h : afterComments fuel cs = .ok after) : Passes 0 cs after := by
  fun_induction afterComments fuel cs with
  | case1 fuel cs ih =>
    obtain ⟨w, hw, h⟩ := exists_of_bind h
    have hopen : Passes 0 ('(' :: '?' :: '#' :: cs) w := fun depth groups =>
      (show sweep ⟨.row, .none, depth, groups⟩ ('(' :: '?' :: '#' :: cs) =
        sweep ⟨.comment, .none, depth, groups⟩ cs from rfl).trans (leads_afterComment hw depth groups)
    exact hopen.trans (ih w h)
  | case2 fuel cs =>
    cases h
    exact .refl _

theorem past_skipComments {s s' : Progress} {u : Unit} (h : skipComments s = .ok (u, s')) :
    Past 0 s s' := by
  unfold skipComments at h
  obtain ⟨cs, s₁, hcs, h⟩ := reading_bind_ok h
  cases hcs
  obtain ⟨after, hafter, h⟩ := reading_lift_ok h
  cases h
  exact .goOn (passes_afterComments hafter)

/-- A plain character, behind a backslash or not. -/
theorem passes_readPlain {groups : Nat} {c : Char} {cs after : List Char}
    (h : readPlain groups cs = .ok (some (c, after))) : Passes 0 cs after := by
  cases cs with
  | nil => cases h
  | cons d cs =>
    by_cases hd : d = '\\'
    · subst hd
      cases cs with
      | nil => cases h
      | cons e cs =>
        rw [readPlain_escaped] at h
        split at h
        · rename_i hplain
          cases h
          refine (crosses_pair isBase_row ?_ _).passes
          rintro rfl
          cases hplain
        · cases h
    · rw [readPlain_unescaped hd] at h
      split at h
      · cases h
      rename_i hann
      obtain ⟨r, -, h⟩ := exists_of_map h
      split at h
      · cases h
      · cases h
        have hne : ∀ e, announces.contains e = true → c ≠ e := by
          rintro e he rfl
          exact hann he
        refine fun depth groups => sweep_next ?_ _
        exact inRow_other _ hd (hne '(' (by decide)) (hne ')' (by decide)) (hne '[' (by decide))

theorem past_readText : ∀ {fuel : Nat} {s s' : Progress} {cs : List Char},
    readText fuel s = .ok (cs, s') → Past 0 s s'
  | 0, s, _, _, h => by
      cases h
      exact .refl s
  | fuel + 1, s, s', cs, h => by
      rw [readText] at h
      obtain ⟨u, s₁, hskip, h⟩ := reading_bind_ok h
      obtain ⟨s₂, s₃, hget, h⟩ := reading_bind_ok h
      cases hget
      obtain ⟨w, s₄, hrest, h⟩ := reading_bind_ok h
      cases hrest
      obtain ⟨r, hr, h⟩ := reading_lift_ok h
      have hfirst := past_skipComments hskip
      cases r with
      | none =>
        cases h
        exact hfirst
      | some r =>
        obtain ⟨c, after⟩ := r
        obtain ⟨u, s₅, hgo, h⟩ := reading_bind_ok h
        cases hgo
        obtain ⟨ds, s₆, hds, h⟩ := reading_bind_ok h
        cases h
        exact (hfirst.trans (.goOn (passes_readPlain hr))).trans (past_readText hds)

/-- Repetitions are passed, and leave the groups of what they repeat. -/
theorem past_readRepeats : ∀ {fuel depth : Nat} {grouped : Bool} {a b : Syntax} {s s' : Progress},
    readRepeats fuel depth grouped a s = .ok (b, s') → Past 0 s s' ∧ Alike a b
  | 0, _, _, a, _, s, _, h => by
      cases h
      exact ⟨.refl s, .refl a⟩
  | fuel + 1, depth, grouped, a, b, s, s', h => by
      rw [readRepeats] at h
      obtain ⟨u, s₁, hskip, h⟩ := reading_bind_ok h
      obtain ⟨w, s₂, hrest, h⟩ := reading_bind_ok h
      cases hrest
      obtain ⟨r, hr, h⟩ := reading_lift_ok h
      have hfirst := past_skipComments hskip
      cases r with
      | none =>
        cases h
        exact ⟨hfirst, .refl a⟩
      | some r =>
        obtain ⟨r, after⟩ := r
        dsimp only at h
        split at h
        · split at h
          · cases h
          obtain ⟨u, s₃, hgo, h⟩ := reading_bind_ok h
          cases hgo
          obtain ⟨c, hc, h⟩ := reading_lift_ok h
          obtain ⟨hpast, halike⟩ := past_readRepeats h
          exact ⟨(hfirst.trans (.goOn (skips_readRepeat hr).passes)).trans hpast,
            (Alike.apply hc).trans halike⟩
        · cases h

/-- A reference by name, from after its opening bracket on. -/
theorem skips_readReference {flags : Flags} {close : Char} (hclose : isOrdinary close = true)
    {cs : List Char} {s s' : Progress} {a : Syntax} (h : readReference flags close cs s = .ok (a, s')) :
    Skips cs s'.rest ∧ s'.groups = s.groups ∧ a.captures = [] := by
  unfold readReference at h
  obtain ⟨⟨referred, isDeeper, after⟩, hreferred, h⟩ := reading_lift_ok h
  have hskips := skips_readReferred hclose hreferred
  obtain ⟨s₁, s₂, hget, h⟩ := reading_bind_ok h
  cases hget
  obtain ⟨u, s₃, hgo, h⟩ := reading_bind_ok h
  cases hgo
  have hend : ∀ groups : List Nat, (reference flags groups >>= fun b =>
      pure (if isDeeper then b.cat .never else b) : Reading Syntax) { s with rest := after } =
        .ok (a, s') → Skips cs s'.rest ∧ s'.groups = s.groups ∧ a.captures = [] := by
    intro groups h
    obtain ⟨b, s₄, hb, h⟩ := reading_bind_ok h
    cases hb
    cases isDeeper <;> cases h <;> exact ⟨hskips, rfl, rfl⟩
  cases referred with
  | number n =>
    cases n with
    | zero => cases h
    | succ n => exact hend _ h
  | after n => exact hend _ h
  | before n =>
    dsimp only at h
    split at h
    · cases h
    · exact hend _ h
  | name name =>
    dsimp only at h
    cases hnumbers : numbersOf name s.names with
    | nil => rw [hnumbers] at h; cases h
    | cons m ms => rw [hnumbers] at h; exact hend _ h

section Escaped

variable {flags : Flags} {d : Char} {cs : List Char} {s s' : Progress} {a : Syntax}

/-- A digit that begins no reference writes a byte. -/
theorem readEscaped_written (hd : d.isDigit = true) (hn : numbered? s.groups (d :: cs) = none) :
    readEscaped flags (d :: cs) s = readWritten flags ('\\' :: d :: cs) s := by
  unfold readEscaped
  simp only [classEscape?_digit hd, anchorEscape?_digit hd, hd, if_true]
  refine (reading_bind_eq get_eq).trans ?_
  rw [hn]

/-- A letter that announces a name where none is in brackets. -/
theorem readEscaped_k (hangle : cs.head? ≠ some '<') (hquote : cs.head? ≠ some '\'') :
    readEscaped flags ('k' :: cs) s =
      (readEscape ('k' :: cs)).map fun r => (literal flags (.char r.1), { s with rest := r.2 }) := by
  have hc : classEscape? 'k' = none := rfl
  have ha : anchorEscape? 'k' = none := rfl
  have hdigit : 'k'.isDigit = false := rfl
  have hother : readEscaped flags ('k' :: cs) s =
      ((readEscape ('k' :: cs) : Reading _) >>= fun r => do
        goOn r.2
        return literal flags (.char r.1)) s := by
    unfold readEscaped
    simp only [hc, ha, hdigit, Bool.false_eq_true, if_false]
    cases cs with
    | nil => rfl
    | cons c cs =>
      have h1 : c ≠ '<' := fun h => hangle (congrArg some h)
      have h2 : c ≠ '\'' := fun h => hquote (congrArg some h)
      simp [h1, h2]
  rw [hother]
  cases readEscape ('k' :: cs) <;> rfl

theorem past_readWritten (h : readWritten flags s.rest s = .ok (a, s')) :
    Past 0 s s' ∧ a.captures = [] := by
  rw [readWritten_eq] at h
  obtain ⟨r, hr, h⟩ := exists_of_map h
  cases h
  exact ⟨.goOn (crosses_writtenAt isBase_row hr).passes,
    captures_of_isLeaf (isLeaf_literal flags _)⟩

/-- The digits of a number, one of which has been taken. -/
theorem skips_numbered {n groups : Nat} {after : List Char} (hd : d.isDigit = true)
    (h : numbered? groups (d :: cs) = some (n, after)) : Skips cs after := by
  unfold numbered? at h
  have hlead : Skips cs (leadingDecimal (d :: cs)).2 := by
    rw [leadingDecimal, List.length_cons, leadingNumber, if_pos hd]
    exact skips_leadingNumber (fun _ => isOrdinary_of_isDigit) _ _ cs
  generalize leadingDecimal (d :: cs) = r at h hlead
  dsimp only at h
  split at h
  · cases h
    exact hlead
  · cases h

/-- A backslash and a digit. -/
theorem past_readEscaped_digit (hd : d.isDigit = true) (hs : s.rest = '\\' :: d :: cs)
    (h : readEscaped flags (d :: cs) s = .ok (a, s')) : Past 0 s s' ∧ a.captures = [] := by
  cases hn : numbered? s.groups (d :: cs) with
  | none =>
    rw [readEscaped_written hd hn, ← hs] at h
    exact past_readWritten h
  | some r =>
    obtain ⟨n, after⟩ := r
    rw [readEscaped_reference hd hn] at h
    cases h
    have hne : d ≠ 'c' := by
      rintro rfl
      cases hd
    refine ⟨.goOn ?_, rfl⟩
    rw [hs]
    exact ((crosses_pair isBase_row hne cs).trans ((skips_numbered hd hn).crosses trivial)).passes

/-- A backslash and the letter of references by name. -/
theorem past_readEscaped_k (hs : s.rest = '\\' :: 'k' :: cs)
    (h : readEscaped flags ('k' :: cs) s = .ok (a, s')) : Past 0 s s' ∧ a.captures = [] := by
  have hname : ∀ (close : Char) {w : List Char}, isOrdinary close = true → ∀ e, isOrdinary e = true →
      cs = e :: w → readReference flags close w s = .ok (a, s') → Past 0 s s' ∧ a.captures = [] := by
    rintro close w hclose e he rfl h
    obtain ⟨hskips, hgroups, hcaptures⟩ := skips_readReference hclose h
    refine ⟨⟨hgroups, ?_⟩, hcaptures⟩
    rw [hs]
    exact ((crosses_pair isBase_row (by decide) _).trans
      (((skips_cons he w).trans hskips).crosses trivial)).passes
  by_cases hangle : cs.head? = some '<'
  · obtain ⟨w, rfl⟩ := List.head?_eq_some_iff.mp hangle
    exact hname '>' (by decide) '<' (by decide) rfl h
  by_cases hquote : cs.head? = some '\''
  · obtain ⟨w, rfl⟩ := List.head?_eq_some_iff.mp hquote
    exact hname '\'' (by decide) '\'' (by decide) rfl h
  rw [readEscaped_k hangle hquote] at h
  obtain ⟨r, hr, h⟩ := exists_of_map h
  cases h
  refine ⟨.goOn ?_, captures_of_isLeaf (isLeaf_literal flags _)⟩
  rw [hs]
  exact (crosses_readEscape isBase_row (fun h => by cases h) hr).passes

/-- **What a backslash announces has no groups.** -/
theorem past_readEscaped (hs : s.rest = '\\' :: cs) (h : readEscaped flags cs s = .ok (a, s')) :
    Past 0 s s' ∧ a.captures = [] := by
  cases cs with
  | nil => cases h
  | cons d cs =>
    by_cases hdigit : d.isDigit = true
    · exact past_readEscaped_digit hdigit hs h
    by_cases hk : d = 'k'
    · subst hk
      exact past_readEscaped_k hs h
    have hleading : isLeading d = false := by
      rw [← Bool.not_eq_true]
      exact fun hlead => hdigit (isDigit_leading hlead).1
    rw [readEscaped_eq hleading hk] at h
    obtain ⟨r, hr, h⟩ := exists_of_map h
    cases h
    obtain ⟨hcross, hleaf⟩ := crosses_spelled isBase_row (fun h => by cases h) hr
    refine ⟨.goOn ?_, captures_of_isLeaf hleaf⟩
    rw [hs]
    exact hcross.passes

end Escaped

/-! ## 3. The head of a group -/

/-- How deep what a head announces stands, where the head itself stands `depth` deep. -/
def GroupHead.inside (depth : Nat) : GroupHead → Nat
  | .options _ => depth
  | _ => depth + 1

/-- How many groups a head numbers. -/
def GroupHead.numbered : GroupHead → Nat
  | .capture _ => 1
  | _ => 0

section Heads

variable {c : Char} {cs after : List Char} {depth groups : Nat} {head : GroupHead} {flags : Flags}

theorem inRow_isSome (t : Sweep) (h : t.depth ≠ 0) (c : Char) : (t.inRow c).isSome = true := by
  unfold Sweep.inRow
  split
  · rfl
  · rfl
  · rw [if_neg h]
    rfl
  · rfl
  · rfl

/-- What stands anywhere from where a character is passed as in a row. -/
theorem sweep_as_row {spot : Spot} {groups' : Nat}
    (h : (⟨spot, .none, depth + 1, groups⟩ : Sweep).unescaped c =
      (⟨spot, .none, depth + 1, groups'⟩ : Sweep).inRow c) (cs : List Char) :
    sweep ⟨spot, .none, depth + 1, groups⟩ (c :: cs) =
      sweep ⟨.row, .none, depth + 1, groups'⟩ (c :: cs) := by
  have hspot : (⟨spot, .none, depth + 1, groups'⟩ : Sweep).inRow c =
      (⟨.row, .none, depth + 1, groups'⟩ : Sweep).inRow c := by
    unfold Sweep.inRow
    split <;> rfl
  obtain ⟨t, ht⟩ := Option.isSome_iff_exists.mp
    (inRow_isSome ⟨.row, .none, depth + 1, groups'⟩ (Nat.succ_ne_zero depth) c)
  have hnext : (⟨spot, .none, depth + 1, groups⟩ : Sweep).next c = some t := (h.trans hspot).trans ht
  have hnext' : (⟨.row, .none, depth + 1, groups'⟩ : Sweep).next c = some t := ht
  rw [sweep_next hnext, sweep_next hnext']

/-- Behind an opening parenthesis alone a group has been numbered. -/
theorem sweep_opened (hc : c ≠ '?') (cs : List Char) :
    sweep ⟨.opened, .none, depth + 1, groups⟩ (c :: cs) =
      sweep ⟨.row, .none, depth + 1, groups + 1⟩ (c :: cs) := by
  refine sweep_as_row ?_ cs
  exact if_neg hc

/-- Behind an angle bracket that begins no look behind a group has been numbered. -/
theorem sweep_angled (h1 : c ≠ '=') (h2 : c ≠ '!') (cs : List Char) :
    sweep ⟨.angled, .none, depth + 1, groups⟩ (c :: cs) =
      sweep ⟨.row, .none, depth + 1, groups + 1⟩ (c :: cs) := by
  refine sweep_as_row ?_ cs
  exact if_neg fun h => h.elim h1 h2

/-- The letters that switch flags. -/
theorem sweep_readOptions {on : Bool} (h : readOptions flags on cs = .ok (head, after)) :
    head.numbered = 0 ∧ ∀ depth groups,
      sweep ⟨.row, .none, depth + 1, groups⟩ cs =
        sweep ⟨.row, .none, head.inside depth, groups⟩ after := by
  fun_induction readOptions flags on cs with
  | case1 => cases h
  | case2 flags on cs => cases h; exact ⟨rfl, fun _ _ => rfl⟩
  | case3 flags on cs => cases h; exact ⟨rfl, fun _ _ => rfl⟩
  | case4 flags on cs ih => exact ih h
  | case5 flags on cs ih => exact ih h
  | case6 flags on cs ih => exact ih h
  | case7 => cases h

/-- **The head of a group.** -/
theorem sweep_readHead (h : readHead flags cs = .ok (head, after)) (depth groups : Nat) :
    sweep ⟨.opened, .none, depth + 1, groups⟩ cs =
      sweep ⟨.row, .none, head.inside depth, groups + head.numbered⟩ after := by
  unfold readHead at h
  split at h
  · cases h
  · cases h
  · cases h; rfl
  · cases h; rfl
  · cases h; rfl
  · cases h; rfl
  · cases h
  · cases h; rfl
  · cases h; rfl
  · rename_i cs _ hlook hlook'
    obtain ⟨r, hr, h⟩ := exists_of_bind h
    cases h
    refine Eq.trans (b := sweep ⟨.angled, .none, depth + 1, groups⟩ cs) rfl ?_
    cases cs with
    | nil => cases hr
    | cons c cs =>
      have h1 : c ≠ '=' := fun he => hlook cs (he ▸ rfl)
      have h2 : c ≠ '!' := fun he => hlook' cs (he ▸ rfl)
      rw [sweep_angled h1 h2]
      exact (skips_readName (by decide) hr).crosses isBase_row _ _
  · rename_i cs
    obtain ⟨r, hr, h⟩ := exists_of_bind h
    cases h
    exact (skips_readName (by decide) hr).crosses isBase_row (depth + 1) (groups + 1)
  · cases h
  · rename_i cs _ _ _ _ _ _ _ _ _ _ _
    refine Eq.trans (b := sweep ⟨.announced, .none, depth + 1, groups⟩ cs) rfl ?_
    cases cs with
    | nil => cases h
    | cons c cs =>
      have h1 : c ≠ '#' := by rintro rfl; cases h
      have h2 : c ≠ '<' := by rintro rfl; cases h
      have h3 : c ≠ '\'' := by rintro rfl; cases h
      obtain ⟨hnumbered, hread⟩ := sweep_readOptions h
      rw [hnumbered, ← hread]
      refine sweep_as_row ?_ cs
      exact (if_neg h1).trans ((if_neg h2).trans (if_neg h3))
  · rename_i hne _ _ _ _ _ _ _ _ _ _ _ hquestion
    cases h
    cases cs with
    | nil => exact absurd rfl hne
    | cons c cs => exact sweep_opened (fun hc => hquestion cs (hc ▸ rfl)) cs

end Heads

/-! ## 4. The grammar -/

/-- Whether a head announces what is read as a group of its own. -/
def GroupHead.isGroup : GroupHead → Bool
  | .plain | .options _ => false
  | _ => true

/-- That what a head announces has been read, with the parenthesis that ends it. -/
def Ends (head : GroupHead) (s : Progress) (a : Syntax) (s' : Progress) : Prop :=
  ∃ n, s'.groups = s.groups + n ∧
    (∀ depth groups, sweep ⟨.row, .none, head.inside depth, groups + head.numbered⟩ s.rest =
      sweep ⟨.row, .none, depth, groups + n⟩ s'.rest) ∧
    a.captures.map (·.1) = List.range' (s.groups + 1) n

section Grammar

variable {s s' s₁ : Progress} {a b : Syntax} {depth : Nat} {flags : Flags} {head : GroupHead}

theorem Ends.extend (h : Ends head s a s₁) (h' : Past 0 s₁ s') (hb : b.captures = a.captures) :
    Ends head s b s' := by
  obtain ⟨n, hn, hpasses, ha⟩ := h
  refine ⟨n, by rw [h'.groups, hn, Nat.add_zero], fun depth groups => ?_, by rw [hb, ha]⟩
  exact (hpasses depth groups).trans (h'.passes depth (groups + n))

theorem repeated_ok {grouped : Bool} (h : repeated depth grouped a s = .ok (b, s')) :
    Past 0 s s' ∧ b.captures = a.captures := by
  obtain ⟨cs, s₁, hcs, h⟩ := reading_bind_ok h
  cases hcs
  obtain ⟨hpast, halike⟩ := past_readRepeats h
  exact ⟨hpast, halike.captures⟩

/-- A piece of one character. -/
theorem covers_single {c : Char} {cs : List Char} (hc : isOrdinary c = true) (hr : s.rest = c :: cs)
    (ha : a.captures = [])
    (h : (goOn cs >>= fun _ => repeated depth false a) s = .ok (b, s')) : Covers s b s' := by
  obtain ⟨u, s₁, hgo, h⟩ := reading_bind_ok h
  cases hgo
  obtain ⟨hpast, hcaptures⟩ := repeated_ok h
  refine Past.covers (.trans (m := 0) (n := 0) (.goOn ?_) hpast) (hcaptures.trans ha)
  rw [hr]
  exact ((skips_cons hc cs).crosses isBase_row).passes

theorem closeGroup_ok {u : Unit} (h : closeGroup s = .ok (u, s')) :
    s.rest = ')' :: s'.rest ∧ s'.groups = s.groups := by
  unfold closeGroup at h
  rw [reading_bind_eq rest_eq] at h
  cases hrest : s.rest with
  | nil => rw [hrest] at h; cases h
  | cons c cs =>
    rw [hrest] at h
    by_cases hc : c = ')'
    · subst hc
      cases h
      exact ⟨rfl, rfl⟩
    · simp [hc] at h
      cases h

/-- What is read up to the parenthesis that closes it. -/
theorem Covers.ends (h : Covers s a s₁) (hclose : s₁.rest = ')' :: s'.rest)
    (hgroups : s'.groups = s₁.groups) (hinside : ∀ depth, head.inside depth = depth + 1)
    (hnumbered : head.numbered = 0) (hb : b.captures = a.captures) : Ends head s b s' := by
  obtain ⟨n, hn, ha⟩ := h
  refine ⟨n, hgroups.trans hn.groups, fun depth groups => ?_, by rw [hb, ha]⟩
  rw [hinside, hnumbered, hn.passes, hclose]
  rfl

/-- What follows the first alternatives. -/
theorem covers_readBar {next : Reading Syntax} {last : Syntax → Syntax}
    (hnext : ∀ {s s' : Progress} {b : Syntax}, next s = .ok (b, s') → Covers s b s')
    (hlast : ∀ a : Syntax, (last a).captures = a.captures) (h : Covers s a s₁)
    (hbar : readBar next last a s₁ = .ok (b, s')) : Covers s b s' := by
  rw [readBar_eq] at hbar
  split at hbar
  · rename_i hhead
    obtain ⟨c, s₂, hc, hbar⟩ := reading_bind_ok hbar
    cases hbar
    obtain ⟨w, hw⟩ := List.head?_eq_some_iff.mp (beq_iff_eq.mp hhead)
    have hpast : Past 0 s₁ { s₁ with rest := s₁.rest.tail } := by
      refine .goOn fun depth groups => ?_
      rw [hw]
      rfl
    exact h.both (hpast.before (hnext hc)) rfl
  · cases hbar
    exact h.extend (.refl _) (hlast a)

/-- **What each reader of the grammar reads is passed.** -/
structure Covered (fuel : Nat) : Prop where
  alternatives : ∀ {depth : Nat} {flags : Flags} {s s' : Progress} {a : Syntax},
    readAlternatives fuel depth flags s = .ok (a, s') → Covers s a s'
  further : ∀ {depth : Nat} {flags : Flags} {s s' : Progress} {a : Syntax},
    readFurther fuel depth flags s = .ok (a, s') → Covers s a s'
  branch : ∀ {depth : Nat} {flags : Flags} {s s' : Progress} {a : Syntax},
    readBranch fuel depth flags s = .ok (a, s') → Covers s a s'
  row : ∀ {depth : Nat} {flags : Flags} {s s' : Progress} {a : Syntax},
    readRow fuel depth flags s = .ok (a, s') → Covers s a s'
  piece : ∀ {depth : Nat} {flags : Flags} {s s' : Progress} {a : Syntax},
    readPiece fuel depth flags s = .ok (a, s') → Covers s a s'
  group : ∀ {depth : Nat} {flags : Flags} {head : GroupHead} {s s' : Progress} {a : Syntax},
    head.isGroup = true → readGroup fuel depth flags head s = .ok (a, s') → Ends head s a s'

theorem covered_zero : Covered 0 where
  alternatives h := by rw [readAlternatives] at h; cases h
  further h := by rw [readFurther] at h; cases h
  branch h := by rw [readBranch] at h; cases h
  row h := by rw [readRow] at h; cases h
  piece h := by rw [readPiece] at h; cases h
  group _ h := by rw [readGroup] at h; cases h

variable {f : Nat} (ih : Covered f)

include ih

theorem covers_alternatives (h : readAlternatives (f + 1) depth flags s = .ok (a, s')) :
    Covers s a s' := by
  rw [readAlternatives_succ] at h
  split at h
  · cases h
  · obtain ⟨b, s₁, hb, h⟩ := reading_bind_ok h
    exact covers_readBar ih.further (fun _ => rfl) (ih.branch hb) h

theorem covers_further (h : readFurther (f + 1) depth flags s = .ok (a, s')) : Covers s a s' := by
  rw [readFurther_succ] at h
  obtain ⟨b, s₁, hb, h⟩ := reading_bind_ok h
  exact covers_readBar ih.further (fun a => (Alike.held a).captures) (ih.branch hb) h

theorem covers_branch (h : readBranch (f + 1) depth flags s = .ok (a, s')) : Covers s a s' := by
  rw [readBranch_succ] at h
  obtain ⟨u, s₁, hskip, h⟩ := reading_bind_ok h
  have hfirst := past_skipComments hskip
  rw [reading_bind_eq atRowEnd_eq] at h
  split at h
  · cases h
    exact hfirst.covers rfl
  obtain ⟨b, s₂, hb, h⟩ := reading_bind_ok h
  have hpiece := hfirst.before (ih.piece hb)
  rw [reading_bind_eq atRowEnd_eq] at h
  split at h
  · cases h
    exact hpiece
  · obtain ⟨c, s₃, hc, h⟩ := reading_bind_ok h
    cases h
    exact hpiece.both (ih.row hc) rfl

theorem covers_row (h : readRow (f + 1) depth flags s = .ok (a, s')) : Covers s a s' := by
  rw [readRow_succ] at h
  obtain ⟨b, s₂, hb, h⟩ := reading_bind_ok h
  rw [reading_bind_eq atRowEnd_eq] at h
  split at h
  · cases h
    exact ih.piece hb
  · obtain ⟨c, s₃, hc, h⟩ := reading_bind_ok h
    cases h
    exact (ih.piece hb).both (ih.row hc) (captures_followedBy b c)

/-- Alternatives with the parenthesis that ends them, in a group that is not numbered. -/
theorem ends_enclosed {within : Nat} {flags' : Flags} {wrap : Syntax → Syntax}
    (h : (do
      let b ← readAlternatives f within flags'
      closeGroup
      return wrap b : Reading Syntax) s = .ok (a, s'))
    (hwrap : ∀ b : Syntax, (wrap b).captures = b.captures)
    (hinside : ∀ depth, head.inside depth = depth + 1) (hnumbered : head.numbered = 0) :
    Ends head s a s' := by
  obtain ⟨b, s₁, hb, h⟩ := reading_bind_ok h
  obtain ⟨u, s₂, hclose, h⟩ := reading_bind_ok h
  cases h
  obtain ⟨hrest, hgroups⟩ := closeGroup_ok hclose
  exact (ih.alternatives hb).ends hrest hgroups hinside hnumbered (hwrap b)

theorem ends_group (hhead : head.isGroup = true)
    (h : readGroup (f + 1) depth flags head s = .ok (a, s')) : Ends head s a s' := by
  rcases head with name | _ | flags' | _ | ⟨isBehind, negated⟩ | flags' <;> rw [readGroup] at h
  · obtain ⟨n, s₁, hopen, h⟩ := reading_bind_ok h
    cases hopen
    obtain ⟨b, s₂, hb, h⟩ := reading_bind_ok h
    obtain ⟨u, s₃, hclose, h⟩ := reading_bind_ok h
    cases h
    obtain ⟨hrest, hgroups⟩ := closeGroup_ok hclose
    obtain ⟨n, hn, hb⟩ := ih.alternatives hb
    refine ⟨n + 1, ?_, fun depth groups => ?_, ?_⟩
    · show s₃.groups = _
      rw [hgroups, hn.groups, Nat.add_right_comm, Nat.add_assoc]
    · refine (hn.passes (depth + 1) (groups + 1)).trans ?_
      rw [hrest, Nat.add_assoc, Nat.add_comm 1 n]
      rfl
    · rw [Syntax.captures, List.map_cons, hb, List.range'_succ]
  · cases hhead
  · exact ends_enclosed ih h (fun _ => rfl) (fun _ => rfl) rfl
  · exact ends_enclosed ih h (fun _ => rfl) (fun _ => rfl) rfl
  · exact ends_enclosed ih h (fun _ => by cases isBehind <;> rfl) (fun _ => rfl) rfl
  · cases hhead

/-- What a head announces, with the repetitions behind it. -/
theorem ends_headed (h : readHeaded f depth flags head s = .ok (a, s')) : Ends head s a s' := by
  unfold readHeaded at h
  cases head with
  | options flags' =>
    obtain ⟨b, s₁, hb, h⟩ := reading_bind_ok h
    cases h
    obtain ⟨n, hn, hb⟩ := ih.alternatives hb
    exact ⟨n, hn.groups, hn.passes, hb⟩
  | plain =>
    obtain ⟨b, s₁, hb, h⟩ := reading_bind_ok h
    obtain ⟨u, s₂, hclose, h⟩ := reading_bind_ok h
    obtain ⟨hrest, hgroups⟩ := closeGroup_ok hclose
    obtain ⟨hpast, hcaptures⟩ := repeated_ok h
    exact ((ih.alternatives hb).ends hrest hgroups (fun _ => rfl) rfl rfl).extend hpast hcaptures
  | _ =>
    obtain ⟨b, s₁, hb, h⟩ := reading_bind_ok h
    obtain ⟨hpast, hcaptures⟩ := repeated_ok h
    exact (ih.group rfl hb).extend hpast hcaptures

/-- A piece that does not begin with a plain character. -/
theorem covers_announced (h : readAnnounced f depth flags s.rest s = .ok (a, s')) :
    Covers s a s' := by
  cases hr : s.rest with
  | nil => rw [hr] at h; cases h
  | cons c cs =>
    rw [hr] at h
    by_cases h1 : c = '('
    · subst h1
      obtain ⟨⟨head, after⟩, hhead, h⟩ := reading_lift_ok h
      obtain ⟨u, s₁, hgo, h⟩ := reading_bind_ok h
      cases hgo
      obtain ⟨n, hn, hpasses, ha⟩ := ends_headed ih h
      refine ⟨n, ⟨hn, fun depth groups => ?_⟩, ha⟩
      rw [hr]
      exact ((sweep_next rfl cs).trans (sweep_readHead hhead depth groups)).trans
        (hpasses depth groups)
    by_cases h2 : c = '['
    · subst h2
      obtain ⟨u, s₁, hgo, h⟩ := reading_bind_ok h
      cases hgo
      obtain ⟨⟨negated, t⟩, s₂, hcls, h⟩ := reading_bind_ok h
      obtain ⟨hgroups, hleads⟩ := (encloses _).cls hcls
      obtain ⟨hpast, hcaptures⟩ := repeated_ok h
      refine Past.covers (.trans (m := 0) (n := 0) ⟨hgroups, fun depth groups => ?_⟩ hpast)
        (hcaptures.trans (captures_of_isLeaf (isLeaf_ofClass _)))
      rw [hr]
      exact (sweep_next rfl cs).trans (hleads 0 depth groups)
    by_cases h3 : c = '\\'
    · subst h3
      obtain ⟨b, s₁, hb, h⟩ := reading_bind_ok h
      obtain ⟨hfirst, hb⟩ := past_readEscaped hr hb
      obtain ⟨hpast, hcaptures⟩ := repeated_ok h
      exact Past.covers (.trans (m := 0) (n := 0) hfirst hpast) (hcaptures.trans hb)
    by_cases h4 : c = '.'
    · subst h4
      exact covers_single (by decide) hr rfl h
    by_cases h5 : c = '^'
    · subst h5
      exact covers_single (by decide) hr rfl h
    by_cases h6 : c = '$'
    · subst h6
      exact covers_single (by decide) hr rfl h
    simp [readAnnounced, h1, h2, h3, h4, h5, h6] at h
    cases h

theorem covers_piece (h : readPiece (f + 1) depth flags s = .ok (a, s')) : Covers s a s' := by
  rw [readPiece_succ, reading_bind_eq rest_eq] at h
  obtain ⟨cs, s₁, hcs, h⟩ := reading_bind_ok h
  have hfirst := past_readText hcs
  cases cs with
  | cons c cs =>
    obtain ⟨hpast, hcaptures⟩ := repeated_ok h
    exact Past.covers (.trans (m := 0) (n := 0) hfirst hpast) hcaptures
  | nil =>
    dsimp only at h
    rw [reading_bind_eq rest_eq] at h
    exact hfirst.before (covers_announced ih h)

end Grammar

/-- **What a reader of the grammar reads is passed.** -/
theorem covered : ∀ f : Nat, Covered f
  | 0 => covered_zero
  | f + 1 => {
      alternatives := covers_alternatives (covered f)
      further := covers_further (covered f)
      branch := covers_branch (covered f)
      row := covers_row (covered f)
      piece := covers_piece (covered f)
      group := ends_group (covered f) }

/-- **A pattern that can be read is passed over**, and the groups that are counted on the way are
    those of its tree. -/
theorem passes_of_readSyntax {cs : List Char} {folded : Bool} {a : Syntax} {n : Nat}
    (h : readSyntax cs folded = .ok (a, n)) :
    Passes n cs [] ∧ a.captures.map (·.1) = List.range' 1 n := by
  obtain ⟨s, hs, hrest, rfl⟩ := readSyntax_ok h
  obtain ⟨n, hn, ha⟩ := (covered _).alternatives hs
  have hpasses := hn.passes
  rw [hrest] at hpasses
  have hgroups : s.groups = n := hn.groups.trans (Nat.zero_add n)
  rw [hgroups]
  exact ⟨hpasses, ha⟩

end Highlight.Regex
