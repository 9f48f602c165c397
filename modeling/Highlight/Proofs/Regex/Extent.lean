import Highlight.Regex.Search

/-!
# Where matches lie

A search from an index finds a match at or behind that index, inside the text, and so does what its
groups have read lie inside the text. A tree changes none but its own groups.

* `Node.groups` -- the groups of a tree;
* `Onward` -- what a trial makes of a place;
* `Advances` -- that a trial goes on from a place that lies onward from the one it is handed;
* `advances_greedy`, `advances_reluctant`, `advances_rounds` -- the loops;
* `advances_run` -- every node;
* `span_search`, `groups_search` -- the match of a search.
-/

namespace Highlight.Regex

variable {text : Text} {origin : Nat} {gs gs' : List Nat}

/-! ## 1. Trials that go on -/

/-- The groups of a tree. -/
def Node.groups : Node → List Nat
  | .seq a b | .alt a b => a.groups ++ b.groups
  | .group index _ a => index :: a.groups
  | .atomic a | .loop _ _ _ _ _ a | .ahead _ a | .behind _ _ a => a.groups
  | _ => []

/-- Of two trials that are tried in turn, one succeeds where both together do. -/
theorem some_of_orElse {α : Type} {x y : Option α} {a : α} (h : (x <|> y) = some a) :
    x = some a ∨ y = some a := by
  cases x with
  | none => exact .inr h
  | some b => exact .inl h

/-- A stretch of the text. -/
def Span.Within (text : Text) (s : Span) : Prop := s.start ≤ s.stop ∧ s.stop ≤ text.size

/-- **A place lies onward from another one**: it lies behind it and not behind the end of the text,
    what a group has read since is a stretch of the text, and only some groups have read any. -/
structure Onward (text : Text) (gs : List Nat) (p p' : Place) : Prop where
  from_le : p.pos ≤ p'.pos
  le_size : p'.pos ≤ text.size
  groups : ∀ g span, p'.captures.find? g = some span →
    p.captures.find? g = some span ∨ span.Within text
  others : ∀ g ∉ gs, p'.captures.find? g = p.captures.find? g

theorem Onward.refl {p : Place} (h : p.pos ≤ text.size) : Onward text gs p p :=
  ⟨Nat.le_refl _, h, fun _ _ => .inl, fun _ _ => rfl⟩

theorem Onward.trans {p p' p'' : Place} (h : Onward text gs p p') (h' : Onward text gs p' p'') :
    Onward text gs p p'' where
  from_le := Nat.le_trans h.from_le h'.from_le
  le_size := h'.le_size
  groups := fun g span hg => (h'.groups g span hg).elim (h.groups g span) .inr
  others := fun g hg => (h'.others g hg).trans (h.others g hg)

theorem Onward.mono {p p' : Place} (h : Onward text gs p p') (hgs : gs ⊆ gs') :
    Onward text gs' p p' :=
  ⟨h.from_le, h.le_size, h.groups, fun g hg => h.others g fun hmem => hg (hgs hmem)⟩

/-- A place that reads on, with the groups as they are. -/
theorem Onward.reads {p : Place} {j : Nat} (hle : p.pos ≤ j) (hsz : j ≤ text.size) :
    Onward text gs p { p with pos := j } := ⟨hle, hsz, fun _ _ => .inl, fun _ _ => rfl⟩

/-- A look around goes on where it began, with what its groups have read. -/
theorem Onward.look {p q q' : Place} (h : Onward text gs q q') (hp : p.pos ≤ text.size)
    (hq : q.captures = p.captures) : Onward text gs p { q' with pos := p.pos } :=
  ⟨Nat.le_refl _, hp, fun g span hg => hq ▸ h.groups g span hg, fun g hg => hq ▸ h.others g hg⟩

/-- A group that has been read to its end has read a stretch of the text. -/
theorem Onward.group {p p' : Place} {index : Nat} {fresh : Bool}
    (h : Onward text gs (p.beginGroup index fresh) p') :
    Onward text (index :: gs) p (p'.endGroup index p.pos) where
  from_le := h.from_le
  le_size := h.le_size
  groups := fun g span hg => by
    by_cases hindex : index = g
    · simp only [Place.endGroup, Captures.find?, hindex, beq_self_eq_true, ↓reduceIte,
        Option.map_some, Option.some.injEq] at hg
      cases hg
      exact .inr ⟨h.from_le, h.le_size⟩
    · simp only [Place.endGroup, Captures.find?, beq_eq_false_iff_ne.mpr hindex,
        Bool.false_eq_true, ↓reduceIte] at hg
      refine (h.groups g span hg).imp_left fun hbegun => ?_
      simpa only [Place.beginGroup, Captures.find?, beq_eq_false_iff_ne.mpr hindex,
        Bool.false_eq_true, ↓reduceIte] using hbegun
  others := fun g hg => by
    rw [List.mem_cons, not_or] at hg
    have hbegun := h.others g hg.2
    simpa only [Place.beginGroup, Place.endGroup, Captures.find?,
      beq_eq_false_iff_ne.mpr (Ne.symm hg.1), Bool.false_eq_true, ↓reduceIte] using hbegun

/-- The trial hands on a place that lies onward from its own. -/
def Advances (text : Text) (gs : List Nat) (body : Place → Rest → Option Place) : Prop :=
  ∀ (p : Place) (k : Rest) (q : Place), p.pos ≤ text.size → body p k = some q →
    ∃ p' : Place, Onward text gs p p' ∧ k p' = some q

theorem Advances.mono {body : Place → Rest → Option Place} (h : Advances text gs body)
    (hgs : gs ⊆ gs') : Advances text gs' body := by
  intro p k q hp hb
  obtain ⟨p', hon, hk⟩ := h p k q hp hb
  exact ⟨p', hon.mono hgs, hk⟩

theorem getElem?_lt {i : Nat} {c : Char} (h : text[i]? = some c) : i < text.size :=
  (Array.getElem?_eq_some_iff.mp h).1

theorem standsAt_le : ∀ (cs : List Char) (i : Nat), i ≤ text.size → standsAt text cs i = true →
    i + cs.length ≤ text.size
  | [], _, h, _ => h
  | c :: cs, i, _, hs => by
      simp only [standsAt, Bool.and_eq_true, beq_iff_eq] at hs
      have h1 : i < text.size := getElem?_lt hs.1
      have h2 := standsAt_le cs (i + 1) h1 hs.2
      simp only [List.length_cons]
      omega

/-! ## 2. Loops -/

section Loops

variable {e : EmptyRound} {body : Place → Rest → Option Place}

/-- A round goes on, or the loop ends, where the round has come to. -/
theorem afterRound_some {p : Place} {next k : Rest} {q r : Place}
    (h : afterRound e p next k q = some r) : next q = some r ∨ k q = some r := by
  unfold afterRound at h
  split at h
  · exact .inl h
  · exact .inr h
  · cases h

theorem advances_greedy (hb : Advances text gs body) (n : Nat) : Advances text gs (greedy e body n) := by
  induction n with
  | zero => exact fun p k q hp h => ⟨p, .refl hp, h⟩
  | succ n ih =>
    intro p k q hp h
    rcases some_of_orElse h with h | h
    · obtain ⟨p', hon, hr⟩ := hb p _ q hp h
      rcases afterRound_some hr with hn | hk
      · obtain ⟨p'', hon', hk⟩ := ih p' k q hon.le_size hn
        exact ⟨p'', hon.trans hon', hk⟩
      · exact ⟨p', hon, hk⟩
    · exact ⟨p, .refl hp, h⟩

theorem advances_reluctant (hb : Advances text gs body) (n : Nat) :
    Advances text gs (reluctant e body n) := by
  induction n with
  | zero => exact fun p k q hp h => ⟨p, .refl hp, h⟩
  | succ n ih =>
    intro p k q hp h
    rcases some_of_orElse h with h | h
    · exact ⟨p, .refl hp, h⟩
    · obtain ⟨p', hon, hr⟩ := hb p _ q hp h
      rcases afterRound_some hr with hn | hk
      · obtain ⟨p'', hon', hk⟩ := ih p' k q hon.le_size hn
        exact ⟨p'', hon.trans hon', hk⟩
      · exact ⟨p', hon, hk⟩

theorem advances_rounds {goOn : Place → Rest → Option Place} (hb : Advances text gs body)
    (hg : Advances text gs goOn) (n : Nat) :
    Advances text gs fun p k => rounds e body (fun q => goOn q k) k n p := by
  induction n with
  | zero => exact fun p k q hp h => hg p k q hp h
  | succ n ih =>
    intro p k q hp h
    obtain ⟨p', hon, hr⟩ := hb p _ q hp h
    rcases afterRound_some hr with hn | hk
    · obtain ⟨p'', hon', hk⟩ := ih p' k q hon.le_size hn
      exact ⟨p'', hon.trans hon', hk⟩
    · exact ⟨p', hon, hk⟩

theorem advances_runLoop (hb : Advances text gs body) (low : Nat) (high : Option Nat)
    (isLazy counted : Bool) : Advances text gs (runLoop text low high isLazy counted e body) := by
  have hg : Advances text gs fun p k =>
      if isLazy then
        reluctant (if counted || high.isNone then e else .never) body (roundsLeft text e low high p)
          p k
      else
        greedy (if counted || high.isNone then e else .never) body (roundsLeft text e low high p)
          p k := by
    intro p k q hp h
    cases isLazy
    · exact advances_greedy hb _ p k q hp h
    · exact advances_reluctant hb _ p k q hp h
  intro p k q hp h
  exact advances_rounds hb hg low p k q hp h

end Loops

/-! ## 3. Reading again -/

theorem sameFrom_bounds : ∀ (cs : List Char) (i j : Nat), i ≤ text.size →
    sameFrom text cs i = some j → i ≤ j ∧ j ≤ text.size
  | [], i, j, hi, h => by
      simp only [sameFrom, Option.some.injEq] at h
      omega
  | c :: cs, i, j, _, h => by
      unfold sameFrom at h
      split at h
      · rename_i hc
        have h1 : i < text.size := getElem?_lt (by simpa using hc)
        have h2 := sameFrom_bounds cs (i + 1) j h1 h
        omega
      · cases h

theorem foldedFrom_bounds : ∀ (cs : List Char) (room i j : Nat), i ≤ text.size →
    foldedFrom text cs room i = some j → i ≤ j ∧ j ≤ text.size
  | [], _, i, j, hi, h => by
      simp only [foldedFrom, Option.some.injEq] at h
      omega
  | c :: cs, room, i, j, _, h => by
      unfold foldedFrom at h
      split at h
      · cases h
      · rename_i d hd
        split at h
        · have h1 : i < text.size := getElem?_lt hd
          have h2 := foldedFrom_bounds cs _ (i + 1) j h1 h
          omega
        · cases h

theorem readAgain_bounds {folded : Bool} {captures : Captures} {i j : Nat} (hi : i ≤ text.size) :
    ∀ gs : List Nat, readAgain text folded captures i gs = some j → i ≤ j ∧ j ≤ text.size
  | [], h => by cases h
  | g :: gs, h => by
      unfold readAgain at h
      split at h
      · exact readAgain_bounds hi gs h
      · simp only at h
        split at h
        · cases h
        · rcases some_of_orElse h with h | h
          · split at h
            · exact foldedFrom_bounds _ _ i j hi h
            · exact sameFrom_bounds _ i j hi h
          · exact readAgain_bounds hi gs h

/-! ## 4. Nodes -/

/-- **Every node goes on from a place that lies onward from its own**, where only its own groups have
    read anything. -/
theorem advances_run (a : Node) : Advances text a.groups (a.run text origin) := by
  induction a with
  | text cs =>
    intro p k q hp h
    simp only [Node.run] at h
    split at h
    · rename_i hs
      exact ⟨p.move cs.length, .reads (Nat.le_add_right _ _) (standsAt_le cs p.pos hp hs), h⟩
    · cases h
  | set t =>
    intro p k q hp h
    simp only [Node.run] at h
    split at h
    · rename_i c hc
      split at h
      · exact ⟨p.move 1, .reads (Nat.le_add_right _ _) (getElem?_lt hc), h⟩
      · cases h
    · cases h
  | anchor a =>
    intro p k q hp h
    simp only [Node.run] at h
    split at h
    · exact ⟨p, .refl hp, h⟩
    · cases h
  | never => intro p k q _ h; cases h
  | seq a b iha ihb =>
    intro p k q hp h
    obtain ⟨p', hon, h'⟩ := iha.mono (List.subset_append_left _ b.groups) p _ q hp h
    obtain ⟨p'', hon', h''⟩ := ihb.mono (List.subset_append_right a.groups _) p' k q hon.le_size h'
    exact ⟨p'', hon.trans hon', h''⟩
  | alt a b iha ihb =>
    intro p k q hp h
    rcases some_of_orElse h with h | h
    · exact iha.mono (List.subset_append_left _ b.groups) p k q hp h
    · exact ihb.mono (List.subset_append_right a.groups _) p k q hp h
  | group index fresh a ih =>
    intro p k q hp h
    obtain ⟨p', hon, h'⟩ := ih (p.beginGroup index fresh) _ q hp h
    exact ⟨p'.endGroup index p.pos, hon.group, h'⟩
  | atomic a ih =>
    intro p k q hp h
    simp only [Node.run] at h
    split at h
    · rename_i p' hp'
      obtain ⟨p'', hon, h'⟩ := ih p some p' hp hp'
      cases h'
      exact ⟨p', hon, h⟩
    · cases h
  | loop low high isLazy counted onEmpty a ih =>
    exact advances_runLoop ih low high isLazy counted
  | ahead negated a ih =>
    intro p k q hp h
    simp only [Node.run] at h
    split at h
    · rename_i q' hq'
      obtain ⟨p', hon, h'⟩ := ih p some q' hp hq'
      cases h'
      exact ⟨{ q' with pos := p.pos }, hon.look hp rfl, h⟩
    · exact ⟨p, .refl hp, h⟩
    · cases h
  | behind negated width a ih =>
    intro p k q hp h
    simp only [Node.run] at h
    split at h
    · rename_i q' hq'
      split at hq'
      · cases hq'
      · obtain ⟨p', hon, h'⟩ := ih { p with pos := p.pos - width } some q'
          (Nat.le_trans (Nat.sub_le _ _) hp) hq'
        cases h'
        exact ⟨{ q' with pos := p.pos }, hon.look hp rfl, h⟩
    · exact ⟨p, .refl hp, h⟩
    · cases h
  | again groups folded =>
    intro p k q hp h
    simp only [Node.run] at h
    split at h
    · rename_i j hj
      obtain ⟨hle, hsz⟩ := readAgain_bounds hp groups hj
      exact ⟨{ p with pos := j }, .reads hle hsz, h⟩
    · cases h

end Highlight.Regex

/-! ## 5. Searches -/

namespace Highlight.Regex

variable {re : Regex} {text : Text} {origin i : Nat} {m : Found}

/-- A match begins at its index, and lies in the text with all that its groups have read. -/
theorem span_matchFrom (hi : i ≤ text.size) (h : re.matchFrom text origin i = some m) :
    m.span.start = i ∧ ∀ g span, m.group? g = some span → span.Within text := by
  unfold matchFrom at h
  obtain ⟨p, hp, rfl⟩ := Option.map_eq_some_iff.mp h
  obtain ⟨p', hon, hk⟩ := advances_run re.node ⟨i, []⟩ some p hi hp
  cases hk
  refine ⟨rfl, fun g span hg => ?_⟩
  unfold Found.group? at hg
  split at hg
  · cases hg
    exact ⟨hon.from_le, hon.le_size⟩
  · exact (hon.groups g span hg).resolve_left fun hnone => by cases hnone

theorem span_firstFrom : ∀ (n i : Nat), i + n ≤ text.size + 1 →
    re.firstFrom text origin n i = some m →
    i ≤ m.span.start ∧ ∀ g span, m.group? g = some span → span.Within text
  | 0, _, _, h => by cases h
  | n + 1, i, hn, h => by
      rcases some_of_orElse h with h | h
      · obtain ⟨hs, hgroups⟩ := span_matchFrom (by omega) h
        exact ⟨Nat.le_of_eq hs.symm, hgroups⟩
      · obtain ⟨hle, hgroups⟩ := span_firstFrom n (i + 1) (by omega) h
        exact ⟨Nat.le_of_succ_le hle, hgroups⟩

/-- **What the groups of a match have read lies inside the text.** -/
theorem groups_search (h : re.search text i = some m) :
    i ≤ m.span.start ∧ ∀ g span, m.group? g = some span → span.Within text := by
  unfold search at h
  by_cases hi : i ≤ text.size + 1
  · exact span_firstFrom (text.size + 1 - i) i (by omega) h
  · have : text.size + 1 - i = 0 := by omega
    rw [this] at h
    cases h

/-- **A search finds a match at or behind the index it begins at, inside the text.** -/
theorem span_search (h : re.search text i = some m) :
    i ≤ m.span.start ∧ m.span.start ≤ m.span.stop ∧ m.span.stop ≤ text.size := by
  obtain ⟨hle, hgroups⟩ := groups_search h
  exact ⟨hle, hgroups 0 m.span rfl⟩

end Highlight.Regex
