import Highlight.Proofs.Arena.Ends
import Highlight.Proofs.Scan.OpenModes

/-!
# The ends of the open modes

An end is looked for with the pattern of the innermost open mode, and passed on outward. Which ends
this pattern joins can be read off the open modes: those of the modes up to the first one that does
not end with its parent. What a mode further out is told of an end are the groups of its own end, as
long as the ends inside have no groups and none of them matches there.

* `endsOf`, `endsThrough_frames` -- the ends of the open modes end the innermost one;
* `PassedOn`, `endsOf_passedOn` -- modes that pass an end on;
* `KeepsApart` -- ends that mean the same by themselves and joined;
* `reads_of_open_ends` -- what is looked up as an end;
* `groups_of_own_end` -- **an end that is passed on to a mode has the groups of its own end**;
* `unread_of_other_end` -- an end that is not that of the innermost mode.
-/

namespace Highlight.Scan

open Highlight.Arena (CompiledUnder EndsThrough Follows RuleMatch StartedInItself compileLanguage)
open Highlight.Grammar (Language)
open Highlight.Pattern (Plain isApart)

variable {s : Scene} {r : Run} {m : RuleMatch} {arena : Arena} {name : String} {language : Language}
  {f : Frame} {frames above below : List Frame}

/-! ## 1. The ends of the open modes -/

/-- **The ends that end the innermost open mode**, to go by the modes that are open. -/
def endsOf (arena : Arena) : List Frame → List String
  | [] => []
  | f :: outer => (arena.mode f.mode).endSource.toList ++
      if (arena.mode f.mode).endsWithParent then endsOf arena outer else []

theorem chain_cons {R : Nat → Nat → Prop} (h : (s.stack (f :: frames)).IsChain R) :
    (s.stack frames).IsChain R ∧ R (s.topId frames) f.mode := by
  rw [stack_cons] at h
  obtain ⟨hchain, _, hlast⟩ := List.isChain_append.mp h
  exact ⟨hchain, hlast _ (getLast?_stack s frames) _ rfl⟩

/-- Open modes of which none is started in itself. -/
def NoneStartedInItself (s : Scene) (frames : List Frame) : Prop :=
  (s.stack frames).IsChain fun p c => ¬ StartedInItself s.arena p c

/-- **The ends of the open modes end the innermost one**, unless it has no end. -/
theorem endsThrough_frames (hc : compileLanguage name language = .ok s.arena)
    (hext : language.extensions = []) (hlinked : Linked s.arena (s.stack frames))
    (hself : NoneStartedInItself s frames) (hrange : ∀ f ∈ frames, f.mode < s.arena.modes.size)
    (hne : ∀ e ∈ endsOf s.arena frames, e ≠ "") :
    endsOf s.arena frames = [] ∧ (s.arena.mode (s.topId frames)).terminator = "" ∨
      EndsThrough language (s.arena.mode (s.topId frames)) (endsOf s.arena frames) := by
  induction frames with
  | nil =>
    obtain ⟨p, hp, hm⟩ := Arena.root_parts hc
    exact .inl ⟨rfl, (congrArg _ hm).trans (Arena.delimiters_root hp).2.2⟩
  | cons f outer ih =>
    obtain ⟨hlinked, hfollows⟩ := chain_cons hlinked
    obtain ⟨hself, hnot⟩ := chain_cons hself
    have hmade := Arena.made_mode hc (hrange f List.mem_cons_self)
    show _ ∧ (s.arena.mode f.mode).terminator = "" ∨ EndsThrough language (s.arena.mode f.mode) _
    unfold endsOf at hne ⊢
    cases hends : (s.arena.mode f.mode).endsWithParent with
    | false =>
      simp only [hends, Bool.false_eq_true, if_false, List.append_nil] at hne ⊢
      rcases hmade.under_or_endless with ⟨t, hunder⟩ | ⟨hsource, _, hterminator⟩
      · exact hunder.ends_itself (.inl hends) hne
      · rw [hsource]
        exact .inl ⟨rfl, hterminator⟩
    | true =>
      simp only [hends, if_true] at hne ⊢
      have ih := ih hlinked hself (fun g hg => hrange g (List.mem_cons_of_mem f hg))
        fun e he => hne e (List.mem_append_right _ he)
      rcases Arena.under_of_follows hc hext hfollows hnot hends with
        hunder | ⟨hp, hsource, hterminator⟩
      · rcases ih with ⟨hnil, hp⟩ | hes
        · rw [hnil, List.append_nil] at hne ⊢
          exact hunder.ends_itself (.inr hp) hne
        · exact .inr (.parent hunder hends hes)
      · rcases ih with ⟨hnil, _⟩ | hes
        · rw [hnil, hsource]
          exact .inl ⟨rfl, hterminator⟩
        · exact absurd hp hes.terminator.2

/-! ## 2. Modes that pass an end on -/

/-- **Open modes pass an end on**: it is not their own, and they end with their parents. -/
def PassedOn (s : Scene) (m : RuleMatch) (above : List Frame) : Prop :=
  ∀ g ∈ above, endsAt s (s.arena.mode g.mode) m.span.start = false ∧
    (s.arena.mode g.mode).endsWithParent = true

theorem endsOf_passedOn (h : PassedOn s m above) (frames : List Frame) :
    endsOf s.arena (above ++ frames) =
      (above.flatMap fun g => (s.arena.mode g.mode).endSource.toList) ++ endsOf s.arena frames := by
  induction above with
  | nil => rfl
  | cons g above ih =>
    have hg := (h g List.mem_cons_self).2
    rw [List.cons_append, endsOf, if_pos hg, ih fun g' hg' => h g' (List.mem_cons_of_mem g hg'),
      List.flatMap_cons, List.append_assoc]

/-- An end that open modes pass on is left to the modes around them. -/
theorem endOf_passedOn (h : PassedOn s m above) (frames : List Frame) :
    endOf s m (above ++ frames) = do
      let (count, rest) ← endOf s m frames
      return (count.map (· + above.length), above ++ rest) := by
  induction above with
  | nil =>
    show endOf s m frames = endOf s m frames >>= fun answer => pure (answer.1.map (· + 0), answer.2)
    have hsame : (fun answer : Option Nat × List Frame =>
        (pure (answer.1.map (· + 0), answer.2) : Attempt _)) = pure := by
      funext answer
      obtain ⟨count, rest⟩ := answer
      cases count <;> rfl
    rw [hsame, bind_pure]
  | cons g above ih =>
    have ih := ih fun g' hg' => h g' (List.mem_cons_of_mem g hg')
    obtain ⟨hat, hends⟩ := h g List.mem_cons_self
    rw [List.cons_append, endOf, askEnd, hat, ih]
    simp only [Bool.false_eq_true, if_false, pure_bind, hends, if_true, bind_assoc]
    congr 1
    funext answer
    obtain ⟨count, rest⟩ := answer
    cases count <;> rfl

/-! ## 3. The groups of an end -/

/-- **Ends that mean the same by themselves and joined**: none of the modes is started in itself; the
    patterns of the innermost mode and the ends are plain, and no end refers to its groups behind
    groups of others; none of the ends of `above` has groups; and neither they nor that of `f` ask
    where the search began. -/
structure KeepsApart (s : Scene) (folded : Bool) (above below : List Frame) (f : Frame) : Prop where
  started : NoneStartedInItself s (above ++ f :: below)
  rules : ∀ rule ∈ (s.arena.mode (s.topId (above ++ f :: below))).rules.rules, rule.kind ≠ .ends →
    Plain folded rule.source
  plain : ∀ e ∈ endsOf s.arena (above ++ f :: below), e ≠ "" ∧ Plain folded e
  apart : isApart 0 ((endsOf s.arena (above ++ f :: below)).map String.toList) = true
  groups : ∀ g ∈ above, ∀ regex, (s.arena.mode g.mode).endRegex = some regex → regex.groups = 0
  origin : ∀ g ∈ above ++ [f], ∀ regex, (s.arena.mode g.mode).endRegex = some regex →
    regex.node.ignoresOrigin = true

/-- Whether a pattern is plain, to look at it. -/
def isPlainPattern (folded : Bool) (pattern : String) : Bool :=
  Pattern.isClear 0 (Pattern.pieces pattern.toList) && Pattern.isSteady folded pattern.toList

theorem plain_of_isPlainPattern {folded : Bool} {pattern : String}
    (h : isPlainPattern folded pattern = true) : Plain folded pattern :=
  ⟨(Bool.and_eq_true_iff.mp h).1, (Bool.and_eq_true_iff.mp h).2⟩

/-- Whether ends mean the same by themselves and joined, to look at the modes, none of which contains
    itself. -/
def keepsApart (s : Scene) (folded : Bool) (above below : List Frame) (f : Frame) : Bool :=
  (s.stack (above ++ f :: below)).all (fun id => !(s.arena.mode id).contains.contains id) &&
    (s.arena.mode (s.topId (above ++ f :: below))).rules.rules.all (fun rule =>
      rule.kind == .ends || isPlainPattern folded rule.source) &&
    (endsOf s.arena (above ++ f :: below)).all (fun e => e != "" && isPlainPattern folded e) &&
    isApart 0 ((endsOf s.arena (above ++ f :: below)).map String.toList) &&
    above.all (fun g => (s.arena.mode g.mode).endRegex.all (·.groups == 0)) &&
    (above ++ [f]).all fun g => (s.arena.mode g.mode).endRegex.all (·.node.ignoresOrigin)

theorem keepsApart_of_check {folded : Bool} (h : keepsApart s folded above below f = true) :
    KeepsApart s folded above below f := by
  simp only [keepsApart, Bool.and_eq_true, List.all_eq_true, Option.all_eq_true] at h
  obtain ⟨⟨⟨⟨⟨hself, hrules⟩, hends⟩, hapart⟩, hgroups⟩, horigin⟩ := h
  have hpairwise : (s.stack (above ++ f :: below)).Pairwise fun p c =>
      ¬ StartedInItself s.arena p c :=
    List.pairwise_of_forall_mem_list fun p hp _ _ hstarted => by simpa [hstarted.1] using hself p hp
  refine ⟨hpairwise.isChain, fun rule hrule hkind => plain_of_isPlainPattern ?_, fun e he => ?_,
    hapart, fun g hg regex hregex => beq_iff_eq.mp (hgroups g hg regex hregex), horigin⟩
  · exact (Bool.or_eq_true_iff.mp (hrules rule hrule)).resolve_left fun h => hkind (beq_iff_eq.mp h)
  · obtain ⟨hne, hplain⟩ := hends e he
    exact ⟨bne_iff_ne.mp hne, plain_of_isPlainPattern hplain⟩

section Groups

variable {continuation : Option (List Nat)} {first : Nat}

/-- What is looked up as an end is what the rule for that reads by itself. -/
theorem reads_of_lookUp (hc : compileLanguage name language = .ok s.arena) (hin : InStep s r)
    (hplain : ∀ rule ∈ (s.top r).rules.rules, Plain language.caseInsensitive rule.source)
    (hl : lookUp s r = .ok (some m, first)) (hends : m.kind = .ends) : ∃ origin k,
      (Arena.Rule.mk .ends (s.top r).terminator).reads language.caseInsensitive s.text origin
        m.span.start k = some m := by
  have hmade := Arena.made_mode hc (topId_lt_size hc hin)
  obtain ⟨_, hmake⟩ := hmade.rules
  obtain ⟨hrules, hfolded, _⟩ := Arena.RuleSet.make_eq_ok hmake
  obtain ⟨origin, hreads⟩ := Arena.reads_of_next hmake (hrules ▸ hplain) hl
  obtain ⟨rule, hrule, hreads⟩ := Option.bind_eq_some_iff.mp hreads
  have hkind : rule.kind = .ends := (Arena.kind_of_reads hreads).symm.trans hends
  rw [Arena.eq_ends_of_mem hmade (List.mem_of_getElem? hrule) hkind, hfolded] at hreads
  exact ⟨origin, _, hreads⟩

/-- The end of an open mode, where it is found. -/
theorem exists_own (hc : compileLanguage name language = .ok s.arena)
    (hrange : f.mode < s.arena.modes.size) {i : Nat} (hf : endsAt s (s.arena.mode f.mode) i = true) :
    ∃ e regex own, (s.arena.mode f.mode).endSource = some e ∧
      (s.arena.mode f.mode).endRegex = some regex ∧
      Pattern.compile e language.caseInsensitive = .ok regex ∧ regex.matchAt s.text i = some own := by
  obtain ⟨regex, hregex, hat⟩ := (Option.any_eq_true _ _).mp hf
  obtain ⟨own, hown⟩ := Option.isSome_iff_exists.mp hat
  obtain ⟨e, he, hcompiled⟩ := (Arena.made_mode hc hrange).end_of_regex hregex
  exact ⟨e, regex, own, he, hregex, hcompiled, hown⟩

/-- The end of an open mode, where it is not found. -/
theorem not_reads_of_endsAt (hc : compileLanguage name language = .ok s.arena)
    (hrange : f.mode < s.arena.modes.size) {i : Nat} (hi : i ≤ s.text.size)
    (hf : endsAt s (s.arena.mode f.mode) i = false) {e : String}
    (he : (s.arena.mode f.mode).endSource = some e) {regex : Regex}
    (hregex : Pattern.compile e language.caseInsensitive = .ok regex)
    (horigin : ∀ regex, (s.arena.mode f.mode).endRegex = some regex →
      regex.node.ignoresOrigin = true) (origin : Nat) :
    (s.arena.mode f.mode).endRegex = some regex ∧ regex.matchFrom s.text origin i = none := by
  rcases (Arena.made_mode hc hrange).under_or_endless with ⟨t, hunder⟩ | ⟨hnone, _⟩
  · obtain ⟨regex', hend, hcompiled⟩ := hunder.compiled he
    cases hregex.symm.trans hcompiled
    refine ⟨hend, ?_⟩
    rw [← Arena.matchAt_eq_matchFrom (horigin _ hend) hi origin]
    rw [endsAt, hend, Option.any_some] at hf
    simpa using hf
  · rw [hnone] at he
    cases he

/-- **What is looked up as an end is read by the ends of the open modes**, joined. -/
theorem reads_of_open_ends (hc : compileLanguage name language = .ok s.arena)
    (hext : language.extensions = []) (hin : InStep s r) (hlinked : Linked s.arena (s.stack r.frames))
    (hl : lookUp s r = .ok (some m, first)) (hends : m.kind = .ends)
    (hframes : r.frames = above ++ f :: below)
    (hapart : KeepsApart s language.caseInsensitive above below f) {es : List String} {e : String}
    (hes : endsOf s.arena (above ++ f :: below) = es) (he : e ∈ es) :
    EndsThrough language (s.top r) es ∧ ∃ origin k,
      (Arena.Rule.mk .ends (s.top r).terminator).reads language.caseInsensitive s.text origin
        m.span.start k = some m := by
  rw [hframes] at hlinked
  have hthrough := (endsThrough_frames hc hext hlinked hapart.started (hframes ▸ hin.inRange)
    fun e he => (hapart.plain e he).1).resolve_left fun h => by rw [hes] at h; simp [h.1] at he
  have hplain := fun e he => (hapart.plain e he).2
  have hkeep := hapart.apart
  rw [hes] at hthrough hplain hkeep
  have htop : s.top r = s.arena.mode (s.topId (above ++ f :: below)) := by rw [Scene.top, hframes]
  rw [← htop] at hthrough
  have hmade := Arena.made_mode hc (topId_lt_size hc hin)
  have hterminator : Plain language.caseInsensitive (s.top r).terminator := by
    rw [hthrough.terminator.1]
    exact (Arena.spanAt_joined hthrough.ne_nil
      (fun e he => ⟨hplain e he, hthrough.compiled e he⟩) hkeep).1.1
  refine ⟨hthrough, reads_of_lookUp hc hin (fun rule hrule => ?_) hl hends⟩
  by_cases hkind : rule.kind = .ends
  · rw [Arena.eq_ends_of_mem hmade hrule hkind]
    exact hterminator
  · exact hapart.rules rule (htop ▸ hrule) hkind

/-- **An end that is passed on to a mode has the groups of its own end.** -/
theorem groups_of_own_end (hc : compileLanguage name language = .ok s.arena)
    (hext : language.extensions = []) (hin : InStep s r) (hlinked : Linked s.arena (s.stack r.frames))
    (hl : lookUp s r = .ok (some m, first)) (hends : m.kind = .ends)
    (hframes : r.frames = above ++ f :: below) (hpassed : PassedOn s m above)
    (hf : endsAt s (s.arena.mode f.mode) m.span.start = true)
    (hapart : KeepsApart s language.caseInsensitive above below f) :
    ∃ regex own, (s.arena.mode f.mode).endRegex = some regex ∧
      regex.matchAt s.text m.span.start = some own ∧ m.span = own.span ∧
      ∀ n, (m.groups[n]?).join = own.group? n := by
  have hsize : m.span.start ≤ s.text.size :=
    Nat.le_trans (Arena.finds_next hl).ordered (Arena.finds_next hl).stop_le
  have hrange : ∀ g ∈ above ++ f :: below, g.mode < s.arena.modes.size := hframes ▸ hin.inRange
  obtain ⟨e, regex, own, he, hregex, hcompiled, hown⟩ := exists_own hc (hrange f (by simp)) hf
  refine ⟨regex, own, hregex, hown, ?_⟩
  -- The ends of the open modes: those inside, that of `f`, and those further out.
  have hes := endsOf_passedOn hpassed (f :: below)
  rw [endsOf, he, Option.toList_some, List.singleton_append] at hes
  obtain ⟨hthrough, origin, k, hreads⟩ := reads_of_open_ends hc hext hin hlinked hl hends hframes
    hapart hes (e := e) (by simp)
  have hplain := fun e he => (hapart.plain e he).2
  have hkeep := hapart.apart
  rw [hes] at hplain hkeep
  rw [Arena.matchAt_eq_matchFrom (hapart.origin f (by simp) regex hregex) hsize origin] at hown
  refine Arena.groups_of_end hthrough hplain hkeep hreads (fun e' he' regex' hregex' => ?_)
    hcompiled hown
  obtain ⟨g, hg, he'⟩ := List.mem_flatMap.mp he'
  obtain ⟨hend, hnone⟩ := not_reads_of_endsAt hc (hrange g (List.mem_append_left _ hg)) hsize
    (hpassed g hg).1 (Option.mem_toList.mp he') hregex'
    (hapart.origin g (List.mem_append_left _ hg)) origin
  exact ⟨hapart.groups g hg regex' hend, hnone⟩

/-- **An end that is not that of the innermost mode leaves the groups of this one unread.** -/
theorem unread_of_other_end (hc : compileLanguage name language = .ok s.arena)
    (hext : language.extensions = []) (hin : InStep s r) (hlinked : Linked s.arena (s.stack r.frames))
    (hl : lookUp s r = .ok (some m, first)) (hends : m.kind = .ends) (hframes : r.frames = f :: below)
    (hf : endsAt s (s.arena.mode f.mode) m.span.start = false)
    (hapart : KeepsApart s language.caseInsensitive [] below f) {regex : Regex}
    (hregex : (s.arena.mode f.mode).endRegex = some regex) {n : Nat} (hpos : 1 ≤ n)
    (hn : n ≤ regex.groups) : (m.groups[n]?).join = none := by
  have hsize : m.span.start ≤ s.text.size :=
    Nat.le_trans (Arena.finds_next hl).ordered (Arena.finds_next hl).stop_le
  have hrange : f.mode < s.arena.modes.size := hin.inRange f (hframes ▸ List.mem_cons_self)
  obtain ⟨e, he, hcompiled⟩ := (Arena.made_mode hc hrange).end_of_regex hregex
  have hes : endsOf s.arena ([] ++ f :: below) = e :: if (s.arena.mode f.mode).endsWithParent then
      endsOf s.arena below else [] := by
    rw [List.nil_append, endsOf, he]
    rfl
  obtain ⟨hthrough, origin, k, hreads⟩ := reads_of_open_ends hc hext hin hlinked hl hends hframes
    hapart hes List.mem_cons_self
  have hplain := fun e he => (hapart.plain e he).2
  have hkeep := hapart.apart
  rw [hes] at hplain hkeep
  obtain ⟨_, hnone⟩ := not_reads_of_endsAt hc hrange hsize hf he hcompiled
    (hapart.origin f (by simp)) origin
  exact Arena.unread_of_end hthrough hplain hkeep hreads hcompiled hnone hpos hn

end Groups

end Highlight.Scan
