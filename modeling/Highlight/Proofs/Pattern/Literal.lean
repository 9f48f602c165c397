import Highlight.Proofs.Pattern.Escaped
import Highlight.Proofs.Pattern.Sequenced
import Highlight.Proofs.Regex.Passed
import Mathlib.Data.List.Nodup

/-!
# Escaped text among other patterns

Where escaped text is merged with patterns, each that stands before it has to be a pattern by itself:
then the parenthesis that is put behind it closes the group that is put around it, whatever happens to
the numbers inside, and the groups behind it are counted on from its own. Nothing is asked of what
stands behind the escaped text but that the whole can be compiled.

* `Whole`, `readBranch_whole` -- a pattern in a group of its own, whatever it is;
* `readParts_literal` -- the alternatives of merged patterns, up to the escaped text;
* `RunsFor`, `exists_runsFor` -- what is run for an alternative;
* `Tells` -- what a match says about a text that is looked for;
* `firstRun_literal` -- what is read where one of the alternatives is a text;
* `escape_reads_itself_only` -- **escaped text reads itself and nothing else**, by itself and among
  other patterns.
-/

namespace Highlight.Pattern

open Regex

/-! ## 1. Patterns in a group of their own -/

/-- A pattern that is closed where it ends, and has `n` groups. -/
structure Whole (n : Nat) (cs : List Char) : Prop where
  passes : Passes n cs []
  head : cs.head? ≠ some '?'

/-- **What can be compiled by itself is whole.** -/
theorem whole_of_compile {pattern : String} {r : Regex} (h : compile pattern false = .ok r) :
    Whole r.groups pattern.toList := by
  obtain ⟨a, ha⟩ := readSyntax_of_readPattern h
  obtain ⟨s, hs, -⟩ := readSyntax_ok ha
  exact ⟨(passes_of_readSyntax ha).1, not_question_of_read hs⟩

section Group

variable {n g f : Nat} {flags : Flags} {cs more : List Char} {s s' : Progress} {a : Syntax}

/-- Looked over at the depth where it begins, a pattern in a group stops at the parenthesis that
    closes the group. -/
theorem sweep_inGroup (h : Passes n cs []) (g : Nat) (more : List Char) :
    sweep ⟨.row, .none, 0, 0⟩ ((inGroup g more).text cs) = (⟨.row, .none, 0, n⟩, ')' :: more) := by
  have halone : sweep ⟨.row, .none, 0, 0⟩ cs = (⟨.row, .none, 0, n⟩, []) :=
    (h 0 0).trans (by rw [Nat.zero_add]; rfl)
  have hmoved := sweep_renumbered (inGroup g more).offset (isReady_of_none rfl) halone
  exact (sweep_append hmoved _).trans (sweep_stop rfl more)

/-- A pattern in a group begins with something other than a question mark. -/
theorem exists_inGroup (h : cs.head? ≠ some '?') (g : Nat) (more : List Char) :
    ∃ c w, (inGroup g more).text cs = c :: w ∧ c ≠ '?' := by
  cases cs with
  | nil => exact ⟨')', more, rfl, by decide⟩
  | cons c w =>
    obtain ⟨w', hw'⟩ := List.head?_eq_some_iff.mp ((inGroup g more).head?_text_cons c w)
    exact ⟨c, w', hw', fun hc => h (congrArg some hc)⟩

/-- **A pattern in a group of its own is read up to the parenthesis that is put behind it.** -/
theorem readBranch_whole (h : Whole n cs) (hmore : Parts more)
    (hs : s.rest = wrapped (g + 1) (pieces cs) ++ more)
    (hread : readBranch (f + 3) 2 flags s = .ok (a, s')) :
    s'.rest = more ∧ s'.groups = s.groups + 1 + n ∧ ∃ b s₁, a = .group (.capture (s.groups + 1)) b ∧
      readAlternatives f 2 flags ⟨(inGroup g more).text cs, s.groups + 1, s.names,
        (s.groups + 1) :: s.opened⟩ = .ok (b, s₁) := by
  obtain ⟨c, w, hw, hc⟩ := exists_inGroup h.head g more
  obtain ⟨rest, groups, names, opened⟩ := s
  simp only at hs
  rw [text_inGroup] at hs
  subst hs
  have hsweep := sweep_inGroup h.passes g more
  rw [hw] at hread hsweep ⊢
  rw [readBranch_opening hc] at hread
  obtain ⟨p, s₁, hpiece, hread⟩ := reading_bind_ok hread
  rw [readPiece_opening hc] at hpiece
  obtain ⟨b, s₂, hb, hpiece⟩ := reading_bind_ok hpiece
  obtain ⟨u, s₃, hclose, hpiece⟩ := reading_bind_ok hpiece
  obtain ⟨u, s₄, hmodify, hpiece⟩ := reading_bind_ok hpiece
  cases hmodify
  -- The same text, looked over where the reader stops at the parenthesis and where nothing is open.
  obtain ⟨k, hpast, -⟩ := (covered _).alternatives hb
  obtain ⟨hrest, hgroups⟩ := closeGroup_ok hclose
  have hboth := hsweep.symm.trans (hpast.passes 0 0)
  rw [hrest, sweep_stop rfl] at hboth
  simp only [Prod.mk.injEq, Sweep.mk.injEq, List.cons.injEq, true_and, Nat.zero_add] at hboth
  obtain ⟨rfl, rfl⟩ := hboth
  cases (repeated_none (s := { s₃ with opened := s₃.opened.erase (groups + 1) })
    hmore.unrepeated).symm.trans hpiece
  rw [reading_bind_eq atRowEnd_eq, hmore.endsRow] at hread
  cases hread
  exact ⟨rfl, hgroups.trans hpast.groups, b, s₂, rfl, hb⟩

end Group

/-! ## 2. The alternatives of merged patterns -/

/-- The numbers of the groups that are put around patterns with so many groups each, when `g` groups
    stand before the first. -/
def wrapperNumbers : Nat → List Nat → List Nat
  | _, [] => []
  | g, n :: ns => (g + 1) :: wrapperNumbers (g + 1 + n) ns

/-- How many groups there are behind such patterns, each in a group of its own. -/
def wrappedGroups (g : Nat) (ns : List Nat) : Nat := ns.foldl (fun g n => g + 1 + n) g

/-- A group with this number. -/
def IsWrapper (n : Nat) (a : Syntax) : Prop := ∃ b, a = .group (.capture n) b

/-- What stands in merged patterns behind one of them. -/
def behindPart (g : Nat) : List (List Char) → List Char
  | [] => []
  | cs :: css => '|' :: mergedText g (cs :: css)

theorem mergedText_cons (g : Nat) (cs : List Char) (css : List (List Char)) :
    mergedText g (cs :: css) =
      wrapped (g + 1) (pieces cs) ++ behindPart (g + 1 + opens cs) css := by
  cases css with
  | nil => exact (List.append_nil _).symm
  | cons ds css => rfl

theorem parts_behindPart (g : Nat) (css : List (List Char)) : Parts (behindPart g css) := by
  intro c hc
  cases css with
  | nil => cases hc
  | cons cs css => cases hc; rfl

section Parts

variable {n g f : Nat} {flags : Flags} {last : Syntax → Syntax} {cs : List Char}
  {css : List (List Char)} {s s' : Progress} {a : Syntax}

/-- One of merged patterns is read as a group, and then the others are. -/
theorem readParts_whole (h : Whole n cs) (hlast : ∀ k a, last (.group k a) = .group k a)
    (hs : s.rest = mergedText g (cs :: css)) (hf : 4 * s.rest.length ≤ f)
    (hread : readParts flags last f s = .ok (a, s')) :
    ∃ b, (∃ e s₁, readAlternatives (e + 3) 2 flags ⟨(inGroup g (behindPart (g + 1 + opens cs) css)).text cs,
        s.groups + 1, s.names, (s.groups + 1) :: s.opened⟩ = .ok (b, s₁)) ∧
      (css = [] ∧ a = .group (.capture (s.groups + 1)) b ∨
        ∃ c s₂ e, s₂.rest = mergedText (g + 1 + opens cs) css ∧ s₂.groups = s.groups + 1 + n ∧
          4 * s₂.rest.length ≤ e ∧ readParts flags Syntax.held e s₂ = .ok (c, s') ∧
          a = .alt (.group (.capture (s.groups + 1)) b) c) := by
  rw [mergedText_cons] at hs
  have hlength : s.rest.length =
      (wrapped (g + 1) (pieces cs)).length + (behindPart (g + 1 + opens cs) css).length := by
    rw [hs, List.length_append]
  have hwrapped : 2 ≤ (wrapped (g + 1) (pieces cs)).length := by
    rw [wrapped_pieces]
    simp
  obtain ⟨e, rfl⟩ : ∃ e, f = e + 3 + 3 := ⟨f - 6, by omega⟩
  obtain ⟨p, s₂, hp, hread⟩ := reading_bind_ok hread
  obtain ⟨hrest, hgroups, b, s₁, rfl, hb⟩ := readBranch_whole h (parts_behindPart _ css) hs hp
  refine ⟨b, ⟨e, s₁, hb⟩, ?_⟩
  rw [readBar_eq, hrest] at hread
  cases css with
  | nil =>
    cases hread
    exact .inl ⟨rfl, hlast _ b⟩
  | cons ds css =>
    obtain ⟨c, s₃, hc, hread⟩ := reading_bind_ok hread
    cases hread
    rw [show e + 3 + 3 = e + 5 + 1 from rfl, readFurther_succ] at hc
    refine .inr ⟨c, { s₂ with rest := mergedText (g + 1 + opens cs) (ds :: css) }, e + 5, rfl, hgroups,
      ?_, hc, rfl⟩
    simp only [behindPart, List.length_cons] at hlength
    show 4 * (mergedText _ _).length ≤ _
    omega

/-- **Escaped text among merged patterns is an alternative of its own**; its group is counted on from
    the groups of the patterns before it. -/
theorem readParts_literal {v : List Char} {after : List (List Char)} {ns : List Nat}
    {before : List (List Char)} (h : List.Forall₂ Whole ns before) :
    ∀ {last : Syntax → Syntax} {g f : Nat} {s s' : Progress} {a : Syntax},
      (∀ k a, last (.group k a) = .group k a) →
      s.rest = mergedText g (before ++ escapeChars v :: after) → 4 * s.rest.length ≤ f →
      readParts ⟨false, false⟩ last f s = .ok (a, s') →
      ∃ bs cs, List.Forall₂ IsWrapper (wrapperNumbers s.groups ns) bs ∧
        Alternates (bs ++ .group (.capture (wrappedGroups s.groups ns + 1)) (.text v false) :: cs)
          a := by
  induction h with
  | nil =>
    intro last g f s s' a hlast hs hf hread
    have hwhole := whole_of_compile (compile_escape (String.ofList v))
    rw [toList_escape, String.toList_ofList] at hwhole
    obtain ⟨b, ⟨e, s₁, hb⟩, hrest⟩ := readParts_whole hwhole hlast hs hf hread
    have htext : (inGroup g (behindPart (g + 1 + opens (escapeChars v)) after)).text (escapeChars v) =
        escapeChars v ++ ')' :: behindPart (g + 1 + opens (escapeChars v)) after :=
      congrArg (· ++ _) (renumbered_escapeChars _ v)
    rw [htext] at hb
    have hended : Ended (')' :: behindPart (g + 1 + opens (escapeChars v)) after) := by
      intro c hc
      cases hc
      rfl
    cases (readAlternatives_escapeChars hended (by decide) rfl).symm.trans hb
    rcases hrest with ⟨-, rfl⟩ | ⟨c, _, _, -, -, -, -, rfl⟩
    · exact ⟨[], [], .nil, .one _⟩
    · exact ⟨[], [c], .nil, .more _ (.one c)⟩
  | @cons n cs ns before hcs _ ih =>
    intro last g f s s' a hlast hs hf hread
    obtain ⟨b, -, hrest⟩ := readParts_whole hcs hlast hs hf hread
    rcases hrest with ⟨hnil, -⟩ | ⟨c, s₂, e, hs₂, hgroups, he, hc, rfl⟩
    · exact absurd hnil (by simp)
    · obtain ⟨bs, ds, hbs, hds⟩ := ih (fun _ _ => rfl) hs₂ he hc
      rw [hgroups] at hbs hds
      exact ⟨_ :: bs, ds, .cons ⟨b, rfl⟩ hbs, .more _ hds⟩

end Parts

/-! ## 3. The alternatives that are run -/

/-- That a tree is run for an alternative, the texts of which have been replaced by what they can read
    and the looks behind settled on the way. -/
def RunsFor (o o' : Overview) (a : Syntax) (m : Node) : Prop :=
  ∃ b, (∃ k, o.settle k (a.joinTexts.foldTexts false) = .ok b) ∧ o'.RunsAs b m

section RunsFor

variable {o o' : Overview} {a : Syntax} {m : Node} {n : Nat} {cs : List Char}

/-- What is run for an alternative has no groups but its own. -/
theorem RunsFor.groups (h : RunsFor o o' a m) : m.groups ⊆ a.captures.map (·.1) := by
  obtain ⟨b, ⟨k, hb⟩, fresh, rfl⟩ := h
  have hkeeps := ((keeps_joinTexts a).trans (keeps_foldTexts false _)).trans (keeps_settle hb)
  exact List.Subset.trans (groups_toNode o' fresh b) hkeeps.groups

theorem RunsFor.group (h : RunsFor o o' (.group (.capture n) a) m) :
    ∃ fresh d, m = .group n fresh d := by
  obtain ⟨b, ⟨k, hb⟩, fresh, rfl⟩ := h
  simp only [Syntax.joinTexts, Syntax.foldTexts, Overview.settle] at hb
  obtain ⟨c, -, hb⟩ := exists_of_bind hb
  cases hb
  exact ⟨fresh, _, rfl⟩

theorem RunsFor.text (h : RunsFor o o' (.group (.capture n) (.text cs false)) m) :
    ∃ fresh, m = .group n fresh (.text cs) := by
  obtain ⟨b, ⟨k, hb⟩, fresh, rfl⟩ := h
  cases hb
  exact ⟨fresh, rfl⟩

/-- What is run for each alternative of a pattern that has been settled. -/
theorem exists_runsFor {as : List Syntax} {t : Syntax} (h : Alternates as a)
    (ht : a.settled = .ok t) (o' : Overview) (fresh : Bool) :
    ∃ o nodes, List.Forall₂ (RunsFor o o') as nodes ∧ ∀ text origin i,
      (o'.toNode fresh t).run text origin ⟨i, []⟩ some = firstRun text origin i nodes := by
  have hready := foldTexts_alternates (joinTexts_alternates h) false
  obtain ⟨bs, hbs, halternates⟩ := settleEach_alternates hready ht
  obtain ⟨nodes, hnodes, hrun⟩ := run_alternates (o := o') halternates fresh
  refine ⟨(a.joinTexts.foldTexts false).overview a.caselessGroups, nodes, ?_, hrun⟩
  have hsettled := forall₂_settleEach hbs
  rw [List.map_map, List.forall₂_map_left_iff] at hsettled
  exact forall₂_of_sources (List.forall₂_same.mpr fun _ _ => rfl) hsettled.flip hnodes
    fun b b' a m heq ha hm => ⟨b, ha, heq ▸ hm⟩

end RunsFor

/-! ## 4. What is read -/

section Reads

variable {text : Text} {origin i n : Nat} {m : Node} {q : Place}

/-- A group that begins a match has read all of it. -/
theorem find?_of_run_group {a : Node} {fresh : Bool} (hi : i ≤ text.size)
    (h : (Node.group n fresh a).run text origin ⟨i, []⟩ some = some q) :
    q.captures.find? n = some ⟨i, q.pos⟩ := by
  obtain ⟨p, -, hp⟩ := advances_run a ((⟨i, []⟩ : Place).beginGroup n fresh) _ q hi h
  cases hp
  simp only [Place.endGroup, Captures.find?, beq_self_eq_true, if_true, Option.map_some]

/-- A tree without a group leaves it alone. -/
theorem find?_of_run (hi : i ≤ text.size) (h : m.run text origin ⟨i, []⟩ some = some q)
    (hn : n ∉ m.groups) : q.captures.find? n = none := by
  obtain ⟨p, hon, hp⟩ := advances_run m ⟨i, []⟩ some q hi h
  cases hp
  exact hon.others n hn

theorem exists_of_firstRun {nodes : List Node} (h : firstRun text origin i nodes = some q) :
    ∃ m ∈ nodes, m.run text origin ⟨i, []⟩ some = some q := List.exists_of_findSome?_eq_some h

/-- **What a match says about a text that is looked for**, the group of which has number `n`, behind
    the groups `earlier`. If that group has read anything, the text goes on with what is looked for,
    and the group has read just this, which is the whole match. And it has read this wherever the text
    goes on with it, unless one of the earlier groups has read something. -/
structure Tells (text : Text) (i n : Nat) (earlier : List Nat) (cs : List Char) (m : Found) :
    Prop where
  only : ∀ s, m.group? n = some s →
    GoesOnWith text i cs ∧ s = ⟨i, i + cs.length⟩ ∧ m.span = ⟨i, i + cs.length⟩
  itself : GoesOnWith text i cs → (∀ k ∈ earlier, m.group? k = none) →
    m.group? n = some ⟨i, i + cs.length⟩

theorem group?_of_pos {m : Found} (hn : 0 < n) : m.group? n = m.captures.find? n :=
  if_neg (by simp only [beq_iff_eq]; omega)

/-- What another alternative reads says nothing about the text, unless that alternative is an earlier
    one. -/
theorem tells_of_run {earlier : List Nat} {cs : List Char} (hi : i ≤ text.size) (hpos : 0 < n)
    (hq : m.run text origin ⟨i, []⟩ some = some q) (hn : n ∉ m.groups)
    (h : GoesOnWith text i cs → ∃ k ∈ earlier, (foundAt i q).group? k ≠ none) :
    Tells text i n earlier cs (foundAt i q) where
  only := fun s hs => by
    rw [group?_of_pos hpos, foundAt, find?_of_run hi hq hn] at hs
    cases hs
  itself := fun hgoes hnone => by
    obtain ⟨k, hk, hsome⟩ := h hgoes
    exact absurd (hnone k hk) hsome

/-- What the text itself reads in its group. -/
theorem tells_of_text {earlier : List Nat} {cs : List Char} {fresh : Bool} (hi : i ≤ text.size)
    (hpos : 0 < n) (hq : (Node.group n fresh (.text cs)).run text origin ⟨i, []⟩ some = some q) :
    Tells text i n earlier cs (foundAt i q) := by
  have hfound : (foundAt i q).group? n = some ⟨i, q.pos⟩ :=
    (group?_of_pos hpos).trans (find?_of_run_group hi hq)
  simp only [Node.run] at hq
  split at hq
  · rename_i hstands
    cases hq
    have hgoes := (standsAt_iff text cs i).mp hstands
    exact ⟨fun s hs => ⟨hgoes, Option.some.inj (hs.symm.trans hfound), rfl⟩, fun _ _ => hfound⟩
  · cases hq

theorem isSome_run_text (n origin : Nat) (fresh : Bool) {cs : List Char} (h : GoesOnWith text i cs) :
    ((Node.group n fresh (.text cs)).run text origin ⟨i, []⟩ some).isSome = true := by
  simp only [Node.run, Place.beginGroup, (standsAt_iff text cs i).mpr h, if_true, Option.isSome_some]

/-- **A text among other alternatives.** -/
theorem firstRun_literal (text : Text) (origin : Nat) {o o' : Overview} {earlier : List Nat} {bs ds : List Syntax}
    {cs : List Char} {nodes : List Node} (hi : i ≤ text.size) (hpos : 0 < n)
    (hearlier : ∀ k ∈ earlier, 0 < k) (hbs : List.Forall₂ IsWrapper earlier bs)
    (hothers : ∀ x ∈ bs ++ ds, n ∉ x.captures.map (·.1))
    (hnodes : List.Forall₂ (RunsFor o o') (bs ++ .group (.capture n) (.text cs false) :: ds) nodes) :
    (GoesOnWith text i cs → (firstRun text origin i nodes).isSome = true) ∧
      ∀ q, firstRun text origin i nodes = some q → Tells text i n earlier cs (foundAt i q) := by
  obtain ⟨ms, ns, rfl, hms, hns⟩ := exists_of_forall₂_append hnodes
  obtain ⟨m, ns, hm, hds, rfl⟩ := List.forall₂_cons_left_iff.mp hns
  obtain ⟨fresh, rfl⟩ := hm.text
  rw [firstRun_append, firstRun_cons]
  refine ⟨fun hgoes => ?_, fun q hq => ?_⟩
  · obtain ⟨q, hq⟩ := Option.isSome_iff_exists.mp
      (isSome_run_text n origin fresh hgoes)
    rw [hq]
    cases firstRun text origin i ms <;> rfl
  -- Which alternative it was: an earlier one, the text itself, or a later one.
  rcases some_of_orElse hq with hq | hq
  · obtain ⟨m, hmem, hrun⟩ := exists_of_firstRun hq
    obtain ⟨x, hx, hm⟩ := exists_of_mem_forall₂ hms hmem
    obtain ⟨k, hk, b, rfl⟩ := exists_of_mem_forall₂ hbs hx
    refine tells_of_run hi hpos hrun (fun hn => hothers _ (List.mem_append_left _ hx) (hm.groups hn))
      fun _ => ⟨k, hk, ?_⟩
    obtain ⟨fresh', d, rfl⟩ := hm.group
    rw [group?_of_pos (hearlier k hk), foundAt, find?_of_run_group hi hrun]
    exact Option.some_ne_none _
  cases hown : (Node.group n fresh (.text cs)).run text origin ⟨i, []⟩ some with
  | some q' =>
    rw [hown] at hq
    cases hq
    exact tells_of_text hi hpos hown
  | none =>
    rw [hown] at hq
    obtain ⟨m, hmem, hrun⟩ := exists_of_firstRun hq
    obtain ⟨x, hx, hm⟩ := exists_of_mem_forall₂ hds hmem
    refine tells_of_run hi hpos hrun (fun hn => hothers _ (List.mem_append_right _ hx) (hm.groups hn))
      fun hgoes => ?_
    have hsome := isSome_run_text n origin fresh hgoes
    rw [hown] at hsome
    cases hsome

end Reads

/-! ## 5. Escaped text by itself and among others -/

/-- The group of one alternative is in no other one. -/
theorem not_mem_others {as bs : List Syntax} {a b : Syntax} {n groups : Nat}
    (h : Alternates (as ++ .group (.capture n) b :: bs) a)
    (ha : a.captures.map (·.1) = List.range' 1 groups) :
    ∀ x ∈ as ++ bs, n ∉ x.captures.map (·.1) := by
  have hnodup : (a.captures.map (·.1)).Nodup := ha ▸ List.nodup_range'
  rw [captures_alternates h, List.map_flatMap, List.nodup_flatMap] at hnodup
  obtain ⟨-, hbehind, hacross⟩ := List.pairwise_append.mp hnodup.2
  have hown : n ∈ (Syntax.group (.capture n) b).captures.map (·.1) := List.mem_cons_self
  intro x hx hn
  rcases List.mem_append.mp hx with hx | hx
  · exact hacross x hx _ List.mem_cons_self hn hown
  · exact (List.pairwise_cons.mp hbehind).1 x hx hown hn

theorem pos_of_mem_wrapperNumbers {ns : List Nat} : ∀ {g : Nat}, ∀ k ∈ wrapperNumbers g ns, 0 < k := by
  induction ns with
  | nil => exact fun k hk => absurd hk List.not_mem_nil
  | cons n ns ih =>
    intro g k hk
    rcases List.mem_cons.mp hk with rfl | hk
    · exact Nat.succ_pos g
    · exact ih k hk

/-- **Escaped text in an alternation**, behind patterns that can be compiled by themselves. -/
theorem tells_merged {v : String} {before after : List String} {rs : List Regex} {r : Regex}
    (h : List.Forall₂ (fun p q => compile p false = .ok q) before rs)
    (hr : compile (merge (before ++ escape v :: after) "|") false = .ok r) {text : Text} {i : Nat}
    (hi : i ≤ text.size) (origin : Nat) :
    (GoesOnWith text i v.toList → (r.matchFrom text origin i).isSome = true) ∧
      ∀ m, r.matchFrom text origin i = some m →
        Tells text i (wrappedGroups 0 (rs.map Regex.groups) + 1)
          (wrapperNumbers 0 (rs.map Regex.groups)) v.toList m := by
  rw [compile, toList_merge, List.map_append, List.map_cons, toList_escape] at hr
  obtain ⟨a, t, ha, ht, hnode⟩ := settled_of_readPattern hr
  obtain ⟨s, hs, -⟩ := readSyntax_ok ha
  rw [readingSteps, readAlternatives_succ, if_neg (by decide)] at hs
  have hwhole : List.Forall₂ Whole (rs.map Regex.groups) (before.map String.toList) := by
    rw [List.forall₂_map_left_iff, List.forall₂_map_right_iff]
    exact (h.imp fun _ _ => whole_of_compile).flip
  generalize hcss : before.map String.toList ++ escapeChars v.toList :: after.map String.toList = css
    at hs
  obtain ⟨bs, ds, hbs, hds⟩ := readParts_literal hwhole (s := ⟨mergedText 0 css, 0, [], []⟩)
    (fun _ _ => rfl) (congrArg (mergedText 0) hcss.symm) (Nat.le_add_right _ 3) hs
  obtain ⟨o, nodes, hnodes, hrun⟩ := exists_runsFor hds ht (t.overview a.caselessGroups) false
  have hfirst := firstRun_literal text origin hi (Nat.succ_pos _)
    pos_of_mem_wrapperNumbers hbs (not_mem_others hds (passes_of_readSyntax ha).2) hnodes
  rw [Regex.matchFrom, hnode, hrun, Option.isSome_map]
  refine ⟨hfirst.1, fun m hm => ?_⟩
  obtain ⟨q, hq, rfl⟩ := Option.map_eq_some_iff.mp hm
  exact hfirst.2 q hq

/-- **Escaped text reads itself and nothing else.** By itself it can be compiled, has no groups, and
    matches where a text goes on with it and nowhere else, over as many bytes as it has. Merged with
    other patterns it is put in parentheses and left as it is; those behind it move by one group more
    than they do without it. And in an alternation, behind patterns that can be compiled by
    themselves, its group has read something only where the text goes on with it, and then this is the
    match; and where the text goes on with it there is a match, in which its group has read it unless
    one of the patterns before it has matched. -/
theorem escape_reads_itself_only (v : String) :
    (∃ r, compile (escape v) false = .ok r ∧ countGroups (escape v) = .ok 0 ∧
      ∀ (text : Text) (origin i : Nat), i ≤ text.size →
        ((r.matchFrom text origin i).isSome = true ↔ GoesOnWith text i v.toList) ∧
        ∀ m, r.matchFrom text origin i = some m → m = ⟨⟨i, i + v.length⟩, []⟩ ∧
          text.byteOffset m.span.stop = text.byteOffset i + v.utf8ByteSize) ∧
    (∀ (before after : List String) (separator : String),
      merge (before ++ after) separator =
        String.intercalate separator (wrapAll 0 before ++ wrapAll (openedBy before) after) ∧
      merge (before ++ escape v :: after) separator =
        String.intercalate separator
          (wrapAll 0 before ++ ("(" ++ escape v ++ ")") :: wrapAll (openedBy before + 1) after)) ∧
    ∀ (before after : List String) (rs : List Regex) (r : Regex),
      List.Forall₂ (fun p q => compile p false = .ok q) before rs →
      compile (merge (before ++ escape v :: after) "|") false = .ok r →
      ∀ (text : Text) (origin i : Nat), i ≤ text.size →
        (GoesOnWith text i v.toList → (r.matchFrom text origin i).isSome = true) ∧
        ∀ m, r.matchFrom text origin i = some m →
          Tells text i (wrappedGroups 0 (rs.map Regex.groups) + 1)
            (wrapperNumbers 0 (rs.map Regex.groups)) v.toList m := by
  refine ⟨⟨_, compile_escape v, ?_, fun text origin i hi => ⟨?_, fun m hm => ?_⟩⟩,
    fun before after separator => ⟨?_, ?_⟩,
    fun before after rs r h hr text origin i hi => tells_merged h hr hi origin⟩
  · rw [countGroups, compile_escape]
    rfl
  · rw [Option.isSome_iff_exists]
    refine ⟨fun ⟨m, hm⟩ => ((matchFrom_escape v text origin i m).mp hm).1, fun hgoes => ?_⟩
    exact ⟨_, (matchFrom_escape v text origin i _).mpr ⟨hgoes, rfl⟩⟩
  · obtain ⟨hgoes, rfl⟩ := (matchFrom_escape v text origin i m).mp hm
    exact ⟨rfl, byteOffset_of_goesOnWith hi hgoes⟩
  · rw [merge, wrapAll_append, Nat.zero_add]
  · rw [merge, wrapAll_escape, parenthesised_toList]

/-- A text with a bracket and a reference, between two patterns that refer to their own groups. -/
theorem bracket_reads_itself_only : ∃ r m,
    compile (merge ["(a)\\1", escape "[\\1(", "(b)\\1"] "|") false = .ok r ∧
      r.matchFrom (Text.ofString "x[\\1(") 0 1 = some m ∧ m.group? 3 = some ⟨1, 5⟩ ∧
      m.span = ⟨1, 5⟩ := by
  have hone : (compile "(a)\\1" false).toOption.any (fun r => r.groups == 1) = true := by
    decide +kernel
  have hall : (compile (merge ["(a)\\1", escape "[\\1(", "(b)\\1"] "|") false).toOption.any
      (fun r => (r.matchFrom (Text.ofString "x[\\1(") 0 1).any fun m => m.group? 1 == none) = true := by
    decide +kernel
  obtain ⟨first, hfirst, hgroups⟩ := exists_of_any hone
  obtain ⟨r, hr, hmatch⟩ := exists_of_any hall
  obtain ⟨m, hm, hnone⟩ := (Option.any_eq_true _ _).mp hmatch
  have hgroup : first.groups = 1 := beq_iff_eq.mp hgroups
  have htells := ((escape_reads_itself_only "[\\1(").2.2 ["(a)\\1"] ["(b)\\1"] [first] r
    (.cons hfirst .nil) hr (Text.ofString "x[\\1(") 0 1 (by decide)).2 m hm
  rw [List.map_cons, List.map_nil, hgroup] at htells
  have hread : m.group? 3 = some ⟨1, 5⟩ := htells.itself ⟨[], rfl⟩ fun k hk =>
    List.mem_singleton.mp hk ▸ beq_iff_eq.mp hnone
  exact ⟨r, m, hr, hm, hread, (htells.only _ hread).2.2⟩

end Highlight.Pattern
