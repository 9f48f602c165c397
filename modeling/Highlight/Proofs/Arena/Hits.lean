import Highlight.Proofs.Arena.Rules
import Mathlib.Data.List.Forall2

/-!
# The matches of a rule set, one after another

A match that is turned down is followed by another one. The matches of a rule set have an order: at
every index those of the rules that match there, as they are declared, then those further on. What a
search finds is the first of them, and what is found after it is turned down is the next.

* `Rule.own` -- what a rule reads by itself;
* `ownAt`, `ownFrom`, `RuleSet.hits` -- the matches in order;
* `RuleSet.ReadsApart` -- that merged patterns find what the rules find by themselves;
* `next_of_readsApart` -- what is found is the first match;
* `hits_eq_cons`, `hits_size` -- the matches after a match;
* `search_eq_head?` -- when a merged pattern finds what its rules find by themselves;
* `Thinned`, `thinned_hits` -- the matches of rules of which some have been left out.
-/

namespace Highlight.Arena

variable {folded : Bool} {text : Text} {rules : List Rule} {rs : RuleSet} {i j k n : Nat}
  {m : RuleMatch} {ms : List RuleMatch} {r : Rule}

/-! ## 1. The matches in order -/

/-- **What a rule reads by itself** at index `i`; `k` is its number. -/
def Rule.own (folded : Bool) (text : Text) (i k : Nat) (r : Rule) : Option RuleMatch := do
  let regex ← (compilePattern r.source folded).toOption
  let groups ← (groupCount r.source).toOption
  let m ← regex.matchAt text i
  return ⟨r.kind, k, m.span, (List.range (groups + 1)).map m.group?⟩

/-- The matches at an index of the rules, the first of which has number `k`. -/
def ownAt (folded : Bool) (text : Text) (i : Nat) : Nat → List Rule → List RuleMatch
  | _, [] => []
  | k, r :: rs => (r.own folded text i k).toList ++ ownAt folded text i (k + 1) rs

/-- The matches at `n` indices, the first of which is `i`. -/
def ownFrom (folded : Bool) (text : Text) (k : Nat) (rules : List Rule) :
    Nat → Nat → List RuleMatch
  | 0, _ => []
  | n + 1, i => ownAt folded text i k rules ++ ownFrom folded text k rules n (i + 1)

/-- **The matches of a rule set in order**: those at index `i` of the rules from number `k` on, then
    those of all rules further on. -/
def RuleSet.hits (rs : RuleSet) (text : Text) (i k : Nat) : List RuleMatch :=
  if i ≤ text.size then
    ownAt rs.folded text i k (rs.rules.drop k)
      ++ ownFrom rs.folded text 0 rs.rules (text.size - i) (i + 1)
  else []

/-- **The merged patterns of a rule set find what its rules find by themselves**: the merged pattern
    of a tail finds the first match of its rules in order. -/
def RuleSet.ReadsApart (rs : RuleSet) (text : Text) : Prop :=
  ∀ k < rs.size, ∃ merged, rs.mergedFrom k = .ok merged ∧ ∀ i,
    merged.search text i =
      (ownFrom rs.folded text k (rs.rules.drop k) (text.size + 1 - i) i).head?

theorem own_eq_some (h : r.own folded text i k = some m) :
    m.kind = r.kind ∧ m.rule = k ∧ m.span.start = i ∧ i ≤ text.size := by
  obtain ⟨regex, _, h⟩ := Option.bind_eq_some_iff.mp h
  obtain ⟨groups, _, h⟩ := Option.bind_eq_some_iff.mp h
  obtain ⟨found, hfound, h⟩ := Option.bind_eq_some_iff.mp h
  cases h
  unfold Regex.matchAt at hfound
  split at hfound
  · rename_i hi
    obtain ⟨p, _, rfl⟩ := Option.map_eq_some_iff.mp hfound
    exact ⟨rfl, rfl, rfl, hi⟩
  · cases hfound

/-- A match at an index is that of a rule; those after it are those of the rules after that. -/
theorem ownAt_eq_cons : ∀ {k : Nat} {rules : List Rule}, ownAt folded text i k rules = m :: ms →
    ∃ j r, rules[j]? = some r ∧ r.own folded text i (k + j) = some m ∧
      ms = ownAt folded text i (k + j + 1) (rules.drop (j + 1))
  | _, [], h => by cases h
  | k, r :: rules, h => by
      unfold ownAt at h
      cases hr : r.own folded text i k with
      | some m' =>
        rw [hr] at h
        cases h
        exact ⟨0, r, rfl, hr, rfl⟩
      | none =>
        rw [hr] at h
        obtain ⟨j, r', hj, hown, hms⟩ := ownAt_eq_cons h
        refine ⟨j + 1, r', hj, ?_, ?_⟩
        · rw [← hown, Nat.add_assoc, Nat.add_comm 1 j]
        · rw [hms, Nat.add_assoc k 1 j, Nat.add_comm 1 j, List.drop_succ_cons]

theorem ownFrom_nil : ∀ (k n i : Nat), ownFrom folded text k [] n i = []
  | _, 0, _ => rfl
  | k, n + 1, i => ownFrom_nil k n (i + 1)

/-- What is found from an index on is found behind it. -/
theorem ownFrom_eq_cons : ∀ {n i : Nat}, ownFrom folded text k rules n i = m :: ms →
    ∃ i' n', i ≤ i' ∧ i' + n' + 1 = i + n ∧
      ∃ ms', ownAt folded text i' k rules = m :: ms' ∧
        ms = ms' ++ ownFrom folded text k rules n' (i' + 1)
  | 0, _, h => by cases h
  | n + 1, i, h => by
      unfold ownFrom at h
      cases hat : ownAt folded text i k rules with
      | cons m' ms' =>
        rw [hat] at h
        cases h
        exact ⟨i, n, Nat.le_refl i, by omega, ms', hat, rfl⟩
      | nil =>
        rw [hat] at h
        obtain ⟨i', n', hle, hsum, hrest⟩ := ownFrom_eq_cons (h : ownFrom _ _ _ _ n (i + 1) = _)
        exact ⟨i', n', by omega, by omega, hrest⟩

/-- **A match in order is that of a rule by itself, and those after it are those from the next rule
    on.** -/
theorem hits_eq_cons (h : rs.hits text i k = m :: ms) :
    i ≤ m.span.start ∧ m.span.start ≤ text.size ∧
      (∃ r, rs.rules[m.rule]? = some r ∧ r.own rs.folded text m.span.start m.rule = some m) ∧
      ms = rs.hits text m.span.start (m.rule + 1) := by
  unfold RuleSet.hits at h
  split at h
  · rename_i hi
    cases hat : ownAt rs.folded text i k (rs.rules.drop k) with
    | cons m' ms' =>
      rw [hat] at h
      cases h
      obtain ⟨j, r, hj, hown, rfl⟩ := ownAt_eq_cons hat
      obtain ⟨_, hrule, hstart, _⟩ := own_eq_some hown
      rw [List.getElem?_drop] at hj
      rw [hstart, hrule]
      refine ⟨Nat.le_refl _, hi, ⟨r, hj, hown⟩, ?_⟩
      rw [RuleSet.hits, if_pos hi, List.drop_drop, Nat.add_assoc]
      rfl
    | nil =>
      rw [hat] at h
      obtain ⟨i', n', hle, hsum, ms', hat', rfl⟩ := ownFrom_eq_cons h
      obtain ⟨j, r, hj, hown, rfl⟩ := ownAt_eq_cons hat'
      obtain ⟨_, hrule, hstart, hsize⟩ := own_eq_some hown
      rw [Nat.zero_add] at hrule hown
      subst hrule hstart
      refine ⟨by omega, hsize, ⟨r, hj, hown⟩, ?_⟩
      have hn : n' = text.size - m.span.start := by omega
      rw [RuleSet.hits, if_pos hsize, hn, Nat.zero_add]
  · cases h

theorem rule_lt_of_hits (h : rs.hits text i k = m :: ms) : m.rule < rs.size := by
  obtain ⟨_, _, ⟨r, hr, _⟩, _⟩ := hits_eq_cons h
  exact (List.getElem?_eq_some_iff.mp hr).1

/-- Behind the last rule the matches go on from the next character. -/
theorem hits_size (rs : RuleSet) (text : Text) (i : Nat) :
    rs.hits text i rs.size = rs.hits text (i + 1) 0 := by
  unfold RuleSet.hits
  rw [show rs.size = rs.rules.length from rfl, List.drop_length]
  by_cases hlt : i < text.size
  · obtain ⟨n, hn⟩ : ∃ n, text.size - i = n + 1 := ⟨text.size - i - 1, by omega⟩
    rw [if_pos (by omega), if_pos (by omega), hn, show text.size - (i + 1) = n by omega]
    rfl
  · rw [if_neg (by omega : ¬ i + 1 ≤ text.size), show text.size - i = 0 by omega]
    split <;> rfl

/-- There are no matches beyond the end of the text. -/
theorem hits_of_size_lt (rs : RuleSet) (k : Nat) (h : text.size < i) : rs.hits text i k = [] := by
  unfold RuleSet.hits
  rw [if_neg (by omega)]

/-! ## 2. The search -/

/-- **What a search finds is the first match in order**, where merged patterns find what the rules
    find by themselves. -/
theorem next_of_readsApart (h : rs.ReadsApart text) (i first : Nat) :
    rs.next text i first =
      .ok (rs.advance first (rs.hits text i (if first < rs.size then first else 0)).head?) := by
  unfold RuleSet.next
  by_cases hempty : rs.rules.isEmpty = true
  · have hrules := List.isEmpty_iff.mp hempty
    have hhits : ∀ k, rs.hits text i k = [] := by
      intro k
      unfold RuleSet.hits
      rw [hrules, List.drop_nil, ownFrom_nil]
      split <;> rfl
    rw [if_pos hempty, hhits]
    rfl
  · have hstart : (if first < rs.size then first else 0) < rs.size := by
      split
      · assumption
      · rw [List.isEmpty_iff] at hempty
        exact List.length_pos_iff.mpr hempty
    rw [if_neg hempty]
    generalize (if first < rs.size then first else 0) = start at hstart ⊢
    obtain ⟨merged, hmerged, hsearch⟩ := h start hstart
    obtain ⟨all, hall, hsearchAll⟩ := h 0 (Nat.lt_of_le_of_lt (Nat.zero_le _) hstart)
    simp only [hmerged, hall, bind, Except.bind, hsearch, hsearchAll]
    unfold RuleSet.hits
    by_cases hi : i ≤ text.size
    · rw [if_pos hi, show text.size + 1 - i = (text.size - i) + 1 by omega,
        show text.size + 1 - (i + 1) = text.size - i by omega, List.drop_zero]
      by_cases hzero : start = 0
      · subst hzero
        rfl
      · have hbeq : (start == 0) = false := by simpa using hzero
        rw [hbeq, Bool.false_or]
        unfold ownFrom
        cases hat : ownAt rs.folded text i start (rs.rules.drop start) with
        | cons m ms =>
          obtain ⟨j, r, _, hown, _⟩ := ownAt_eq_cons hat
          have hm := (own_eq_some hown).2.2.1
          simp [hm]
          rfl
        | nil =>
          rw [List.nil_append, List.nil_append, if_neg]
          · rfl
          · simp only [Bool.not_eq_true, Option.any_eq_false_iff_get, beq_eq_false_iff_ne]
            intro hsome hget
            obtain ⟨m, hm⟩ := Option.isSome_iff_exists.mp hsome
            obtain ⟨ms, hms⟩ := List.head?_eq_some_iff.mp hm
            obtain ⟨i', n', hle, _, ms', hat', _⟩ := ownFrom_eq_cons hms
            obtain ⟨j, r, _, hown, _⟩ := ownAt_eq_cons hat'
            have hstart' := (own_eq_some hown).2.2.1
            simp only [hm, Option.get_some] at hget
            omega
    · rw [if_neg hi, show text.size + 1 - i = 0 by omega,
        show text.size + 1 - (i + 1) = 0 by omega]
      unfold ownFrom
      split <;> rfl

/-- The rule that a match of a merged pattern is of. -/
def Merged.pick (merged : Merged) (found : Regex.Found) : Option RuleMatch := do
  let s ← merged.slots.find? fun s => (found.group? s.group).isSome
  return ⟨s.kind, s.rule, found.span, s.groupsOf found⟩

/-- **A merged pattern finds the first match in order** if it does at every index. -/
theorem search_eq_head? {merged : Merged} (h : ∀ j ≤ text.size,
      match ownAt folded text j k rules with
      | [] => merged.regex.matchFrom text i j = none
      | m :: _ => ∃ found, merged.regex.matchFrom text i j = some found ∧
          merged.pick found = some m) :
    merged.search text i = (ownFrom folded text k rules (text.size + 1 - i) i).head? := by
  have hfirst : ∀ n j, j + n ≤ text.size + 1 →
      (merged.regex.firstFrom text i n j).bind merged.pick =
        (ownFrom folded text k rules n j).head? := by
    intro n
    induction n with
    | zero => exact fun _ _ => rfl
    | succ n ih =>
      intro j hj
      have hat := h j (by omega)
      unfold Regex.firstFrom ownFrom
      cases hown : ownAt folded text j k rules with
      | nil =>
        rw [hown] at hat
        rw [hat]
        exact ih (j + 1) (by omega)
      | cons m ms =>
        rw [hown] at hat
        obtain ⟨found, hfound, hpick⟩ := hat
        rw [hfound]
        exact hpick
  by_cases hi : i ≤ text.size
  · exact hfirst _ _ (by omega)
  · rw [show text.size + 1 - i = 0 by omega]
    have hnone : merged.regex.search text i = none := by
      rw [Regex.search, show text.size + 1 - i = 0 by omega]
      rfl
    show (merged.regex.search text i).bind _ = _
    rw [hnone]
    rfl

/-! ## 3. Rules left out -/

/-- **Of a first list some have been left out in a second**; the others are alike, in order. -/
inductive Thinned {α β : Type} (same : α → β → Prop) (leftOut : α → Prop) :
    List α → List β → Prop
  | nil : Thinned same leftOut [] []
  | keep {a : α} {b : β} {as : List α} {bs : List β} : same a b → Thinned same leftOut as bs →
      Thinned same leftOut (a :: as) (b :: bs)
  | leave {a : α} {as : List α} {bs : List β} : leftOut a → Thinned same leftOut as bs →
      Thinned same leftOut (a :: as) bs

theorem Thinned.append {α β : Type} {same : α → β → Prop} {leftOut : α → Prop} {as as' : List α}
    {bs bs' : List β} (h : Thinned same leftOut as bs) (h' : Thinned same leftOut as' bs') :
    Thinned same leftOut (as ++ as') (bs ++ bs') := by
  induction h with
  | nil => exact h'
  | keep hab _ ih => exact .keep hab ih
  | leave ha _ ih => exact .leave ha ih

theorem Thinned.mono {α β : Type} {same same' : α → β → Prop} {leftOut leftOut' : α → Prop}
    {as : List α} {bs : List β} (h : Thinned same leftOut as bs)
    (hsame : ∀ a b, same a b → same' a b) (hout : ∀ a, leftOut a → leftOut' a) :
    Thinned same' leftOut' as bs := by
  induction h with
  | nil => exact .nil
  | keep hab _ ih => exact .keep (hsame _ _ hab) ih
  | leave ha _ ih => exact .leave (hout _ ha) ih

theorem Thinned.of_forall₂ {α β : Type} {same : α → β → Prop} {leftOut : α → Prop} {as : List α}
    {bs : List β} (h : List.Forall₂ same as bs) : Thinned same leftOut as bs := by
  induction h with
  | nil => exact .nil
  | cons hab _ ih => exact .keep hab ih

theorem Thinned.of_all {α β : Type} {same : α → β → Prop} {leftOut : α → Prop} :
    ∀ {as : List α}, (∀ a ∈ as, leftOut a) → Thinned same leftOut as []
  | [], _ => .nil
  | a :: _, h => .leave (h a List.mem_cons_self)
      (Thinned.of_all fun b hb => h b (List.mem_cons_of_mem a hb))

theorem Thinned.map {α β α' β' : Type} {same : α → β → Prop} {same' : α' → β' → Prop}
    {leftOut : α → Prop} {leftOut' : α' → Prop} {f : α → α'} {g : β → β'} {as : List α} {bs : List β}
    (h : Thinned same leftOut as bs)
    (hsame : ∀ a ∈ as, ∀ b ∈ bs, same a b → same' (f a) (g b))
    (hout : ∀ a ∈ as, leftOut a → leftOut' (f a)) : Thinned same' leftOut' (as.map f) (bs.map g) := by
  induction h with
  | nil => exact .nil
  | @keep a b as bs hab _ ih =>
    refine .keep (hsame a List.mem_cons_self b List.mem_cons_self hab) (ih ?_ ?_)
    · exact fun x hx y hy => hsame x (List.mem_cons_of_mem a hx) y (List.mem_cons_of_mem b hy)
    · exact fun x hx => hout x (List.mem_cons_of_mem a hx)
  | @leave a as bs ha _ ih =>
    refine .leave (hout a List.mem_cons_self ha) (ih ?_ ?_)
    · exact fun x hx => hsame x (List.mem_cons_of_mem a hx)
    · exact fun x hx => hout x (List.mem_cons_of_mem a hx)

/-- What a rule stands for, up to the numbers of modes. -/
inductive SameKind (R : Nat → Nat → Prop) : RuleKind → RuleKind → Prop
  | begins {x x' : Nat} : R x x' → SameKind R (.begins x) (.begins x')
  | ends : SameKind R .ends .ends
  | illegal : SameKind R .illegal .illegal

/-- The same rule, up to the numbers of modes. -/
structure SameRule (R : Nat → Nat → Prop) (r r' : Rule) : Prop where
  kind : SameKind R r.kind r'.kind
  source : r'.source = r.source

/-- The same match, up to the numbers of rules and modes. -/
structure SameMatch (R : Nat → Nat → Prop) (m m' : RuleMatch) : Prop where
  kind : SameKind R m.kind m'.kind
  span : m'.span = m.span
  groups : m'.groups = m.groups

section LeftOut

variable {R : Nat → Nat → Prop} {leftOut : Rule → Prop} {out : RuleMatch → Prop}
  (hout : ∀ r i k m, leftOut r → Rule.own folded text i k r = some m → out m)

/-- The same rules read the same by themselves. -/
theorem SameRule.own {r r' : Rule} (h : SameRule R r r') (i k k' : Nat) :
    Thinned (SameMatch R) out (r.own folded text i k).toList (r'.own folded text i k').toList := by
  unfold Rule.own
  rw [h.source]
  cases (compilePattern r.source folded).toOption with
  | none => exact .nil
  | some regex =>
    cases (groupCount r.source).toOption with
    | none => exact .nil
    | some groups =>
      simp only [Option.bind_eq_bind, Option.bind_some]
      cases regex.matchAt text i with
      | none => exact .nil
      | some m => exact .keep ⟨h.kind, rfl, rfl⟩ .nil

include hout

theorem thinned_ownAt {rules rules' : List Rule} (h : Thinned (SameRule R) leftOut rules rules')
    (i : Nat) : ∀ k k', Thinned (SameMatch R) out (ownAt folded text i k rules)
      (ownAt folded text i k' rules') := by
  induction h with
  | nil => exact fun _ _ => .nil
  | keep hr _ ih => exact fun k k' => (hr.own i k k').append (ih (k + 1) (k' + 1))
  | @leave r rules rules' hr _ ih =>
    intro k k'
    rw [ownAt]
    cases hown : r.own folded text i k with
    | none => exact ih (k + 1) k'
    | some m => exact .leave (hout r i k m hr hown) (ih (k + 1) k')

theorem thinned_ownFrom {rules rules' : List Rule} (h : Thinned (SameRule R) leftOut rules rules')
    (k k' : Nat) : ∀ n i, Thinned (SameMatch R) out (ownFrom folded text k rules n i)
      (ownFrom folded text k' rules' n i)
  | 0, _ => .nil
  | n + 1, i => (thinned_ownAt hout h i k k').append (thinned_ownFrom h k k' n (i + 1))

end LeftOut

/-- **Where rules have been left out, their matches are missing, and no others.** -/
theorem thinned_hits {R : Nat → Nat → Prop} {leftOut : Rule → Prop} {out : RuleMatch → Prop}
    {rs rs' : RuleSet} (hfolded : rs'.folded = rs.folded)
    (h : Thinned (SameRule R) leftOut rs.rules rs'.rules)
    (hout : ∀ r i k m, leftOut r → Rule.own rs.folded text i k r = some m → out m) (i : Nat) :
    Thinned (SameMatch R) out (rs.hits text i 0) (rs'.hits text i 0) := by
  unfold RuleSet.hits
  rw [hfolded]
  split
  · exact (thinned_ownAt hout h i 0 0).append (thinned_ownFrom hout h 0 0 _ (i + 1))
  · exact .nil

end Highlight.Arena
