import Highlight.Proofs.Lists
import Highlight.Regex.Matching

/-!
# Matching with groups moved

A tree whose groups have been given greater numbers reads the same texts, where other groups have
been opened before; its groups read what they read before. Whether a group counts as fresh while it
is being read makes no difference, since nothing in it refers to it.

* `Node.MovedAs` -- a tree with its groups moved, none of which is referred to from inside;
* `SameMarks`, `Same` -- what the groups of both have read so far;
* `same_runLoop` -- loops;
* `same_run` -- **both read the same**;
* `run_origin` -- trees that do not ask where the search began.
-/

namespace Highlight.Regex

/-! ## 1. Moved trees -/

/-- Rounds that read nothing, for groups whose numbers are greater by `offset`. -/
def EmptyRound.moved (offset : Nat) : EmptyRound → EmptyRound
  | .never => .never
  | .ends groups => .ends (groups.map (· + offset))

/-- The second tree is the first one with its groups, which are among the first `size`, moved by
    `offset`; they may be fresh in one and not in the other. None of the groups and references in it
    is to one that stands open around it. -/
inductive Node.MovedAs (offset size : Nat) : List Nat → Node → Node → Prop
  | text {opened : List Nat} (cs : List Char) : MovedAs offset size opened (.text cs) (.text cs)
  | set {opened : List Nat} (t : CharTest) : MovedAs offset size opened (.set t) (.set t)
  | anchor {opened : List Nat} (a : Anchor) : MovedAs offset size opened (.anchor a) (.anchor a)
  | never {opened : List Nat} : MovedAs offset size opened .never .never
  | seq {opened : List Nat} {a a' b b' : Node} : MovedAs offset size opened a a' →
      MovedAs offset size opened b b' → MovedAs offset size opened (.seq a b) (.seq a' b')
  | alt {opened : List Nat} {a a' b b' : Node} : MovedAs offset size opened a a' →
      MovedAs offset size opened b b' → MovedAs offset size opened (.alt a b) (.alt a' b')
  | group {opened : List Nat} {g : Nat} {a a' : Node} (fresh fresh' : Bool) : 1 ≤ g → g ≤ size →
      g ∉ opened → MovedAs offset size (g :: opened) a a' →
      MovedAs offset size opened (.group g fresh a) (.group (g + offset) fresh' a')
  | atomic {opened : List Nat} {a a' : Node} : MovedAs offset size opened a a' →
      MovedAs offset size opened (.atomic a) (.atomic a')
  | loop {opened : List Nat} {a a' : Node} (low : Nat) (high : Option Nat) (isLazy counted : Bool)
      (e : EmptyRound) : MovedAs offset size opened a a' →
      MovedAs offset size opened (.loop low high isLazy counted e a)
        (.loop low high isLazy counted (e.moved offset) a')
  | ahead {opened : List Nat} {a a' : Node} (negated : Bool) : MovedAs offset size opened a a' →
      MovedAs offset size opened (.ahead negated a) (.ahead negated a')
  | behind {opened : List Nat} {a a' : Node} (negated : Bool) (width : Nat) :
      MovedAs offset size opened a a' →
      MovedAs offset size opened (.behind negated width a) (.behind negated width a')
  | again {opened groups : List Nat} (folded : Bool) :
      (∀ m ∈ groups, (1 ≤ m ∧ m ≤ size) ∧ m ∉ opened) →
      MovedAs offset size opened (.again groups folded) (.again (groups.map (· + offset)) folded)

/-! ## 2. What groups have read -/

/-- The groups of the second tree have been opened and closed as those of the first, behind what
    stood before; where a group is opened it had read the same before. -/
inductive SameMarks (offset size : Nat) (base : Captures) : Captures → Captures → Prop
  | start : SameMarks offset size base [] base
  | opening {cs cs' : Captures} {g : Nat} (pos : Nat) (stop stop' : Option Nat) :
      SameMarks offset size base cs cs' → 1 ≤ g → g ≤ size →
      Captures.find? cs' (g + offset) = Captures.find? cs g →
      SameMarks offset size base (⟨g, true, pos, stop⟩ :: cs)
        (⟨g + offset, true, pos, stop'⟩ :: cs')
  | closing {cs cs' : Captures} {g : Nat} (start : Nat) (stop : Option Nat) :
      SameMarks offset size base cs cs' → 1 ≤ g → g ≤ size →
      SameMarks offset size base (⟨g, false, start, stop⟩ :: cs)
        (⟨g + offset, false, start, stop⟩ :: cs')

theorem SameMarks.length {offset size : Nat} {base cs cs' : Captures}
    (h : SameMarks offset size base cs cs') : cs'.length = cs.length + base.length := by
  induction h with
  | start => simp
  | opening pos stop stop' _ _ _ _ ih | closing start stop _ _ _ ih =>
    simp only [List.length_cons, ih]
    omega

/-- Groups beyond those that are moved have read what they had read before. -/
theorem SameMarks.find?_of_lt {offset size : Nat} {base cs cs' : Captures}
    (h : SameMarks offset size base cs cs') {n : Nat} (hn : n ≤ offset ∨ size + offset < n) :
    cs'.find? n = base.find? n := by
  induction h with
  | start => rfl
  | opening pos stop stop' _ h1 hg _ ih | closing start stop _ h1 hg ih =>
    simp only [Captures.find?, beq_iff_eq]
    rw [if_neg (by omega)]
    exact ih

/-- A tree by itself opens none but its own groups. -/
theorem SameMarks.find?_own {offset size : Nat} {base cs cs' : Captures}
    (h : SameMarks offset size base cs cs') {n : Nat} (hn : size < n) : cs.find? n = none := by
  induction h with
  | start => rfl
  | opening pos stop stop' _ h1 hg _ ih | closing start stop _ h1 hg ih =>
    simp only [Captures.find?, beq_iff_eq]
    rw [if_neg (by omega)]
    exact ih

/-- Two matches stand at the same place, and the groups that are not `opened` have read the same. -/
structure Same (offset size : Nat) (base : Captures) (opened : List Nat) (p p' : Place) :
    Prop where
  pos : p'.pos = p.pos
  marks : SameMarks offset size base p.captures p'.captures
  reads : ∀ n, 1 ≤ n → n ≤ size → n ∉ opened →
    p'.captures.find? (n + offset) = p.captures.find? n

section Same

variable {offset size : Nat} {base : Captures} {opened : List Nat} {p p' : Place}

theorem Same.move (h : Same offset size base opened p p') (n : Nat) :
    Same offset size base opened (p.move n) (p'.move n) :=
  ⟨congrArg (· + n) h.pos, h.marks, h.reads⟩

theorem Same.at (h : Same offset size base opened p p') (i : Nat) :
    Same offset size base opened { p with pos := i } { p' with pos := i } :=
  ⟨rfl, h.marks, h.reads⟩

theorem Same.beginGroup (h : Same offset size base opened p p') {g : Nat} (h1 : 1 ≤ g)
    (hg : g ≤ size) (hopen : g ∉ opened) (fresh fresh' : Bool) :
    Same offset size base (g :: opened) (p.beginGroup g fresh)
      (p'.beginGroup (g + offset) fresh') where
  pos := h.pos
  marks := by
    simp only [Place.beginGroup, h.pos]
    exact .opening _ _ _ h.marks h1 hg (h.reads g h1 hg hopen)
  reads := by
    intro n hn1 hn hne
    rw [List.mem_cons, not_or] at hne
    simp only [Place.beginGroup, Captures.find?, beq_iff_eq]
    rw [if_neg (by omega), if_neg (by omega)]
    exact h.reads n hn1 hn hne.2

theorem Same.endGroup {g : Nat} (h : Same offset size base (g :: opened) p p') (h1 : 1 ≤ g)
    (hg : g ≤ size) (start : Nat) :
    Same offset size base opened (p.endGroup g start) (p'.endGroup (g + offset) start) where
  pos := h.pos
  marks := by
    simp only [Place.endGroup, h.pos]
    exact .closing _ _ h.marks h1 hg
  reads := by
    intro n hn1 hn hne
    simp only [Place.endGroup, Captures.find?, beq_iff_eq, h.pos]
    by_cases hgn : g = n
    · rw [if_pos hgn, if_pos (by omega)]
    · rw [if_neg hgn, if_neg (by omega)]
      refine h.reads n hn1 hn ?_
      rw [List.mem_cons, not_or]
      exact ⟨Ne.symm hgn, hne⟩

end Same

/-! ## 3. Loops -/

section Loops

variable {offset size : Nat} {base : Captures} {opened : List Nat}

theorem contains_moved (groups : List Nat) (g : Nat) :
    (groups.map (· + offset)).contains (g + offset) = groups.contains g := by
  rw [Bool.eq_iff_iff, List.contains_iff_mem, List.contains_iff_mem]
  simp

theorem emptyRound_moved {cs cs' : Captures} (h : SameMarks offset size base cs cs')
    (groups : List Nat) (pos n : Nat) (hn : n ≤ cs.length) :
    emptyRound (groups.map (· + offset)) pos n cs' = emptyRound groups pos n cs := by
  induction h generalizing n with
  | start =>
    cases Nat.le_zero.mp hn
    rfl
  | opening start stop stop' _ _ _ hfind ih =>
    cases n with
    | zero => rfl
    | succ n =>
      simp only [emptyRound, ih n (by simpa using hn), contains_moved, changedBy, hfind]
  | closing start stop _ _ _ ih =>
    cases n with
    | zero => rfl
    | succ n =>
      simp only [emptyRound, ih n (by simpa using hn), Bool.not_false, Bool.or_true, Bool.true_or,
        if_true]

/-- A round is judged the same. -/
theorem judge_moved {p p' q q' : Place} (hp : Same offset size base opened p p')
    (hq : Same offset size base opened q q') (e : EmptyRound) :
    (e.moved offset).judge p' q' = e.judge p q := by
  cases e with
  | never => rfl
  | ends groups =>
    have hlen : q'.captures.length - p'.captures.length =
        q.captures.length - p.captures.length := by
      rw [hp.marks.length, hq.marks.length]
      omega
    simp only [EmptyRound.moved, EmptyRound.judge, hp.pos, hq.pos, List.isEmpty_map, hlen,
      emptyRound_moved hq.marks groups q.pos _ (Nat.sub_le _ _)]

variable {R : Place → Place → Prop} {body body' : Place → Rest → Option Place}

/-- What follows comes to the same. -/
def SameRest (offset size : Nat) (base : Captures) (opened : List Nat) (R : Place → Place → Prop)
    (k k' : Rest) : Prop :=
  ∀ q q', Same offset size base opened q q' → Option.Rel R (k q) (k' q')

theorem same_afterRound {p p' : Place} {next next' k k' : Rest}
    (hp : Same offset size base opened p p') (e : EmptyRound)
    (hnext : SameRest offset size base opened R next next')
    (hk : SameRest offset size base opened R k k') :
    SameRest offset size base opened R (afterRound e p next k)
      (afterRound (e.moved offset) p' next' k') := by
  intro q q' hq
  unfold afterRound
  rw [judge_moved hp hq e]
  cases e.judge p q with
  | next => exact hnext q q' hq
  | last => exact hk q q' hq
  | none => exact .none

variable (hbody : ∀ {p p' : Place} {k k' : Rest}, Same offset size base opened p p' →
    SameRest offset size base opened R k k' → Option.Rel R (body p k) (body' p' k'))

include hbody

theorem same_greedy (e : EmptyRound) {k k' : Rest} (hk : SameRest offset size base opened R k k') :
    ∀ n, SameRest offset size base opened R (fun q => greedy e body n q k)
      (fun q => greedy (e.moved offset) body' n q k')
  | 0 => hk
  | n + 1 => fun p p' hp =>
      rel_orElse (hbody hp (same_afterRound hp e (same_greedy e hk n) hk)) (hk p p' hp)

theorem same_reluctant (e : EmptyRound) {k k' : Rest}
    (hk : SameRest offset size base opened R k k') :
    ∀ n, SameRest offset size base opened R (fun q => reluctant e body n q k)
      (fun q => reluctant (e.moved offset) body' n q k')
  | 0 => hk
  | n + 1 => fun p p' hp =>
      rel_orElse (hk p p' hp) (hbody hp (same_afterRound hp e (same_reluctant e hk n) hk))

theorem same_rounds (e : EmptyRound) {next next' k k' : Rest}
    (hnext : SameRest offset size base opened R next next')
    (hk : SameRest offset size base opened R k k') :
    ∀ n, SameRest offset size base opened R (rounds e body next k n)
      (rounds (e.moved offset) body' next' k' n)
  | 0 => hnext
  | n + 1 => fun _ _ hp => hbody hp (same_afterRound hp e (same_rounds e hnext hk n) hk)

/-- **Loops go round as often.** -/
theorem same_runLoop (text : Text) (low : Nat) (high : Option Nat) (isLazy counted : Bool)
    (e : EmptyRound) {p p' : Place} {k k' : Rest} (hp : Same offset size base opened p p')
    (hk : SameRest offset size base opened R k k') :
    Option.Rel R (runLoop text low high isLazy counted e body p k)
      (runLoop text low high isLazy counted (e.moved offset) body' p' k') := by
  have hif : ∀ c : Bool, (if c then e.moved offset else EmptyRound.never) =
      (if c then e else EmptyRound.never).moved offset := by
    intro c
    cases c <;> rfl
  unfold runLoop
  simp only [hif]
  generalize (if (counted || high.isNone) = true then e else EmptyRound.never) = further
  refine same_rounds hbody _ (fun q q' hq => ?_) hk low p p' hp
  have hleft : roundsLeft text (e.moved offset) low high q' = roundsLeft text e low high q := by
    unfold roundsLeft
    cases e <;> simp only [EmptyRound.moved, hq.pos, List.length_map]
  rw [hleft]
  cases isLazy with
  | true => exact same_reluctant hbody further hk _ q q' hq
  | false => exact same_greedy hbody further hk _ q q' hq

end Loops

/-! ## 4. Whole trees -/

theorem readAgain_moved {offset : Nat} {cs cs' : Captures} (text : Text) (folded : Bool) (j : Nat) :
    ∀ {groups : List Nat}, (∀ m ∈ groups, cs'.find? (m + offset) = cs.find? m) →
      readAgain text folded cs' j (groups.map (· + offset)) = readAgain text folded cs j groups
  | [], _ => rfl
  | g :: gs, h => by
      simp only [List.map_cons, readAgain, h g (by simp),
        readAgain_moved text folded j fun m hm => h m (List.mem_cons_of_mem g hm)]

/-- What follows a look at `p` that has found `found`. -/
def afterLook (negated : Bool) (p : Place) (k : Rest) (found : Option Place) : Option Place :=
  match found, negated with
  | some q, false => k { q with pos := p.pos }
  | none, true => k p
  | _, _ => none

theorem same_afterLook {offset size : Nat} {base : Captures} {opened : List Nat}
    {R : Place → Place → Prop} {p p' : Place} {k k' : Rest} {x x' : Option Place} (negated : Bool)
    (hp : Same offset size base opened p p') (hk : SameRest offset size base opened R k k')
    (hx : Option.Rel (Same offset size base opened) x x') :
    Option.Rel R (afterLook negated p k x) (afterLook negated p' k' x') := by
  cases hx with
  | some hq =>
    cases negated with
    | true => exact .none
    | false =>
      simp only [afterLook, hp.pos]
      exact hk _ _ (hq.at p.pos)
  | none =>
    cases negated with
    | true => exact hk _ _ hp
    | false => exact .none

/-- **A tree with its groups moved reads the same.** -/
theorem same_run {offset size : Nat} {base : Captures} {opened : List Nat} {a a' : Node}
    (h : a.MovedAs offset size opened a') (text : Text) (origin : Nat)
    {R : Place → Place → Prop} {p p' : Place} {k k' : Rest}
    (hp : Same offset size base opened p p') (hk : SameRest offset size base opened R k k') :
    Option.Rel R (a.run text origin p k) (a'.run text origin p' k') := by
  induction h generalizing R p p' k k' with
  | text cs =>
    simp only [Node.run, hp.pos]
    split
    · exact hk _ _ (hp.move _)
    · exact .none
  | set t =>
    simp only [Node.run, hp.pos]
    split
    · split
      · exact hk _ _ (hp.move 1)
      · exact .none
    · exact .none
  | anchor c =>
    simp only [Node.run, hp.pos]
    split
    · exact hk _ _ hp
    · exact .none
  | never => exact .none
  | seq _ _ iha ihb => exact iha hp fun q q' hq => ihb hq hk
  | alt _ _ iha ihb => exact rel_orElse (iha hp hk) (ihb hp hk)
  | group fresh fresh' h1 hg hopen _ ih =>
    simp only [Node.run, hp.pos]
    exact ih (hp.beginGroup h1 hg hopen fresh fresh') fun q q' hq =>
      hk _ _ (hq.endGroup h1 hg p.pos)
  | @atomic opened a a' _ ih =>
    have hrel : Option.Rel (Same offset size base opened) (a.run text origin p some)
        (a'.run text origin p' some) := ih hp fun q q' hq => .some hq
    simp only [Node.run]
    generalize a.run text origin p some = x at hrel ⊢
    generalize a'.run text origin p' some = x' at hrel ⊢
    cases hrel with
    | some hq => exact hk _ _ hq
    | none => exact .none
  | loop low high isLazy counted e _ ih =>
    exact same_runLoop (fun hp hk => ih hp hk) text low high isLazy counted e hp hk
  | ahead negated _ ih =>
    exact same_afterLook negated hp hk (ih hp fun q q' hq => .some hq)
  | behind negated width _ ih =>
    refine same_afterLook negated hp hk ?_
    rw [hp.pos]
    split
    · exact .none
    · exact ih (hp.at (p.pos - width)) fun q q' hq => .some hq
  | again folded hgroups =>
    have hread := readAgain_moved text folded p.pos fun m hm =>
      hp.reads m (hgroups m hm).1.1 (hgroups m hm).1.2 (hgroups m hm).2
    simp only [Node.run, hp.pos, hread]
    split
    · exact hk _ _ (hp.at _)
    · exact .none

/-! ## 5. Where the search began -/

/-- Whether a tree does not ask where the search began. -/
def Node.ignoresOrigin : Node → Bool
  | .anchor a => a != .searchStart
  | .seq a b | .alt a b => a.ignoresOrigin && b.ignoresOrigin
  | .group _ _ a | .atomic a | .loop _ _ _ _ _ a | .ahead _ a | .behind _ _ a => a.ignoresOrigin
  | _ => true

/-- A tree that does not ask where the search began reads the same wherever it did. -/
theorem run_origin {a : Node} (h : a.ignoresOrigin = true) (text : Text) (origin origin' : Nat) :
    a.run text origin = a.run text origin' := by
  induction a with
  | anchor a =>
    funext p k
    cases a <;> first | rfl | cases h
  | seq a b iha ihb | alt a b iha ihb =>
    simp only [Node.ignoresOrigin, Bool.and_eq_true] at h
    funext p k
    simp only [Node.run, iha h.1, ihb h.2]
  | group g fresh a ih | atomic a ih | loop low high isLazy counted e a ih | ahead negated a ih
  | behind negated width a ih =>
    funext p k
    simp only [Node.run, ih h]
  | _ => rfl

end Highlight.Regex
