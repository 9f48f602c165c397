import Mathlib.Data.List.Induction
import Highlight.Proofs.Highlighting.Outcomes

/-!
# Which outcome detection finds

Detection highlights a text in several languages, puts the outcomes in order, and keeps the first
two. How two outcomes compare depends on which language extends which, so the order is one only as
far as these declarations make sense together.

* `participants_eq` -- who takes part: the languages that the candidates stand for, each once;
* `candidateOutcomes` -- what their runs come to;
* `Consistent` -- that outcomes compare as things do in an order;
* `BestOf`, `bestOf_ranked` -- the best of some outcomes, which is the first one in order;
* `detection_finds_best` -- the result.
-/

namespace Highlight.Highlighter

open Highlight.Scan (Attempt)

variable {h : Highlighter} {code : String} {candidates : Option (List String)} {o : Outcome}
  {os rest : List Outcome} {best : Outcome} {d : Detection}

/-! ## 1. Who takes part -/

theorem participants_filter (h : Highlighter) : ∀ cs seen : List String,
    h.participants seen cs =
      ((cs.filterMap h.canonicalName).filter fun n => !seen.contains n).eraseDups.filter
        h.autoDetection
  | [], seen => rfl
  | c :: cs, seen => by
      unfold participants
      cases hc : h.canonicalName c with
      | none => simp only [List.filterMap_cons, hc, participants_filter h cs seen]
      | some name =>
        simp only [List.filterMap_cons, hc, List.filter_cons]
        cases hseen : seen.contains name with
        | true => simpa using participants_filter h cs seen
        | false =>
          have hnext : (cs.filterMap h.canonicalName).filter
              (fun n => !(name :: seen).contains n) =
              ((cs.filterMap h.canonicalName).filter fun n => !seen.contains n).filter
                fun n => !n == name := by
            rw [List.filter_filter]
            congr 1
            funext n
            rw [List.contains_cons, Bool.not_or]
          simp only [Bool.not_false, if_true, Bool.false_eq_true, if_false, List.eraseDups_cons,
            List.filter_cons, participants_filter h cs (name :: seen), hnext]

/-- **The languages that the candidates stand for take part, each once**, in the order of the
    candidates, if they are among those to choose from. -/
theorem takingPart_eq (h : Highlighter) (candidates : Option (List String)) :
    h.takingPart candidates =
      ((((candidates <|> h.options.languages).getD h.languages).filterMap
        h.canonicalName).eraseDups).filter h.autoDetection := by
  unfold takingPart
  rw [participants_filter]
  congr 2
  simp

/-! ## 2. What they come to -/

/-- What runs in several languages come to, as far as they have an outcome. -/
def outcomesOf (run : String → Attempt Outcome) (names : List String) : List Outcome :=
  names.filterMap fun name => (run name).result.toOption

theorem mem_outcomesOf {run : String → Attempt Outcome} {names : List String} {name : String}
    (hname : name ∈ names) (ho : (run name).result = .ok o) : o ∈ outcomesOf run names :=
  List.mem_filterMap.mpr ⟨name, hname, congrArg Except.toOption ho⟩

/-- Detection goes on if every run has an outcome, or has met something forbidden. -/
theorem tryAll_ok {run : String → Attempt Outcome} : ∀ {names : List String} {os : List Outcome},
    (tryAll run names).result = .ok os → os = outcomesOf run names ∧
      ∀ name ∈ names, (∃ o, (run name).result = .ok o) ∨
        ∃ f, (run name).result = .error f ∧ f.cause.isIllegal = true
  | [], os, hos => by
      cases hos
      exact ⟨rfl, fun _ hn => by cases hn⟩
  | name :: names, os, hos => by
      unfold tryAll at hos
      simp only at hos
      split at hos
      · rename_i o ho
        cases hothers : (tryAll run names).result with
        | error f =>
          rw [hothers] at hos
          cases hos
        | ok others =>
          rw [hothers] at hos
          cases hos
          obtain ⟨rfl, hall⟩ := tryAll_ok hothers
          refine ⟨?_, List.forall_mem_cons.mpr ⟨.inl ⟨o, ho⟩, hall⟩⟩
          simp [outcomesOf, ho, Except.toOption]
      · rename_i f hf
        split at hos
        · rename_i hillegal
          obtain ⟨rfl, hall⟩ := tryAll_ok hos
          refine ⟨?_, List.forall_mem_cons.mpr ⟨.inr ⟨f, hf, hillegal⟩, hall⟩⟩
          simp [outcomesOf, hf, Except.toOption]
        · cases hos

/-- **What the languages that take part come to.** One that has met something forbidden and is not
    recovered has no outcome. -/
def candidateOutcomes (h : Highlighter) (candidates : Option (List String)) (code : String) :
    List Outcome :=
  outcomesOf (fun name => h.highlight name code false none) (h.takingPart candidates)

/-! ## 3. Outcomes in order -/

/-- **That some outcomes compare as things do in an order.** -/
structure Consistent (h : Highlighter) (os : List Outcome) : Prop where
  oriented : ∀ a ∈ os, ∀ b ∈ os, h.rank b a = (h.rank a b).swap
  transitive : ∀ a ∈ os, ∀ b ∈ os, ∀ c ∈ os,
    h.rank a b ≠ .gt → h.rank b c ≠ .gt → h.rank a c ≠ .gt

theorem Consistent.of_subset {os' : List Outcome} (hc : h.Consistent os) (hsub : os' ⊆ os) :
    h.Consistent os' where
  oriented a ha b hb := hc.oriented a (hsub ha) b (hsub hb)
  transitive a ha b hb c hc' := hc.transitive a (hsub ha) b (hsub hb) c (hsub hc')

/-- What comes before the best outcome comes before all. -/
theorem Consistent.lt_of_lt (hc : h.Consistent os) {x : Outcome} (hx : x ∈ os) (ho : o ∈ os)
    (hb : best ∈ os) (hxb : h.rank x best ≠ .lt) (hob : h.rank o best = .lt) :
    h.rank o x = .lt := by
  have hbx : h.rank best x ≠ .gt := fun hgt => hxb (by rw [hc.oriented best hb x hx, hgt]; rfl)
  have hbo : h.rank best o = .gt := by rw [hc.oriented o ho best hb, hob]; rfl
  cases hox : h.rank o x with
  | lt => rfl
  | eq | gt =>
    have hxo : h.rank x o ≠ .gt := by
      rw [hc.oriented o ho x hx, hox]
      decide
    exact absurd hbo (hc.transitive best hb x hx o ho hbx hxo)

/-- **The best of some outcomes, and the others.** No other one comes before it, and it comes before
    those that stand earlier. -/
def BestOf (h : Highlighter) (os : List Outcome) (best : Outcome) (rest : List Outcome) : Prop :=
  ∃ earlier later, os = earlier ++ best :: later ∧ rest = earlier ++ later ∧
    (∀ o ∈ earlier, h.rank o best = .gt) ∧ ∀ o ∈ later, h.rank o best ≠ .lt

theorem BestOf.mem (hb : h.BestOf os best rest) : best ∈ os := by
  obtain ⟨earlier, later, rfl, -, -, -⟩ := hb
  exact List.mem_append_right earlier List.mem_cons_self

theorem BestOf.subset (hb : h.BestOf os best rest) : rest ⊆ os := by
  obtain ⟨earlier, later, rfl, rfl, -, -⟩ := hb
  exact (List.sublist_cons_self best later).append_left earlier |>.subset

/-- No outcome comes before the best one. -/
theorem BestOf.rank_ne_lt (hb : h.BestOf os best rest) (hc : h.Consistent os) (ho : o ∈ os) :
    h.rank o best ≠ .lt := by
  have hself : h.rank best best = (h.rank best best).swap := hc.oriented _ hb.mem _ hb.mem
  obtain ⟨earlier, later, rfl, -, hearlier, hlater⟩ := hb
  rcases List.mem_append.mp ho with ho | ho
  · rw [hearlier o ho]
    decide
  · rcases List.mem_cons.mp ho with rfl | ho
    · intro hlt
      rw [hlt] at hself
      cases hself
    · exact hlater o ho

/-- An outcome that comes before all is placed at the front. -/
theorem place_of_lt_all : ∀ {placed : List Outcome}, (∀ x ∈ placed, h.rank o x = .lt) →
    h.place o placed = placed ++ [o]
  | [], _ => rfl
  | last :: placed, hall => by
      obtain ⟨hlast, hall⟩ := List.forall_mem_cons.mp hall
      rw [place, hlast, place_of_lt_all hall]
      rfl

/-- An outcome does not pass one that it does not come before. -/
theorem place_concat (ho : h.rank o best ≠ .lt) : ∀ placed : List Outcome,
    h.place o (placed ++ [best]) = h.place o placed ++ [best]
  | [] => by
      show (if h.rank o best == .lt then _ else _) = _
      rw [if_neg (by simpa using ho)]
      rfl
  | last :: placed => by
      rw [List.cons_append, place, place, place_concat ho placed]
      split <;> rfl

theorem ranked_concat (h : Highlighter) (os : List Outcome) (o : Outcome) :
    h.ranked (os ++ [o]) = (h.place o (h.ranked os).reverse).reverse := by
  simp only [ranked, List.foldl_append, List.foldl_cons, List.foldl_nil, List.reverse_reverse]

theorem mem_ranked : ∀ {os : List Outcome}, o ∈ h.ranked os → o ∈ os := by
  intro os
  induction os using List.reverseRecOn with
  | nil => exact fun ho => ho
  | append_singleton os x ih =>
    rw [ranked_concat]
    intro ho
    rcases mem_place (List.mem_reverse.mp ho) with rfl | ho
    · exact List.mem_append_right os (List.mem_singleton_self o)
    · exact List.mem_append_left [x] (ih (List.mem_reverse.mp ho))

/-- The outcomes of a detection are plain text, or come from runs. -/
theorem plain_or_run (hd : (h.highlightAuto code candidates).result = .ok d)
    (ho : o = d.best ∨ d.secondBest = some o) :
    o = .plain code ∨ ∃ name, (h.highlight name code false none).result = .ok o := by
  unfold highlightAuto at hd
  rw [detect_eq] at hd
  obtain ⟨os, hos, hd⟩ := Attempt.result_bind_eq_ok hd
  cases hd
  have hchosen : o = .plain code ∨ o ∈ h.ranked (.plain code :: os) := by
    unfold choose at ho
    split at ho
    · rcases ho with ho | ho
      · exact .inl ho
      · cases ho
    · rename_i best others hranked
      rw [hranked]
      rcases ho with rfl | ho
      · exact .inr List.mem_cons_self
      · exact .inr (List.mem_cons_of_mem _ (List.mem_of_mem_head? ho))
  rcases hchosen with hplain | hmem
  · exact .inl hplain
  · rcases List.mem_cons.mp (mem_ranked hmem) with hplain | hmem
    · exact .inl hplain
    · obtain ⟨name, -, hrun⟩ := mem_tryAll hos hmem
      exact .inr ⟨name, hrun⟩

/-- **The first outcome in order is the best one, and the others follow in their order.** -/
theorem bestOf_ranked : ∀ {os : List Outcome}, h.Consistent os → os ≠ [] →
    ∃ best rest, h.BestOf os best rest ∧ h.ranked os = best :: h.ranked rest := by
  intro os
  induction os using List.reverseRecOn with
  | nil => exact fun _ hne => absurd rfl hne
  | append_singleton os o ih =>
    intro hc _
    by_cases hos : os = []
    · subst hos
      exact ⟨o, [], ⟨[], [], rfl, rfl, fun _ hx => (by cases hx), fun _ hx => (by cases hx)⟩, rfl⟩
    · have hsub : os ⊆ os ++ [o] := List.subset_append_left os [o]
      obtain ⟨best, rest, hb, hranked⟩ := ih (hc.of_subset hsub) hos
      have ho : o ∈ os ++ [o] := List.mem_append_right os (List.mem_singleton_self o)
      by_cases hlt : h.rank o best = .lt
      · -- The new one comes before the best so far, and so before all of them.
        have hall : ∀ x ∈ os, h.rank o x = .lt := fun x hx =>
          hc.lt_of_lt (hsub hx) ho (hsub hb.mem) (hb.rank_ne_lt (hc.of_subset hsub) hx) hlt
        refine ⟨o, os, ⟨os, [], rfl, (List.append_nil os).symm, fun x hx => ?_,
          fun _ hx => by cases hx⟩, ?_⟩
        · rw [hc.oriented o ho x (hsub hx), hall x hx]
          rfl
        · have hplaced : ∀ x ∈ (h.ranked os).reverse, h.rank o x = .lt :=
            fun x hx => hall x (mem_ranked (List.mem_reverse.mp hx))
          rw [ranked_concat, place_of_lt_all hplaced, List.reverse_append, List.reverse_reverse]
          rfl
      · -- The best so far stays the best, and the new one is placed among the others.
        obtain ⟨earlier, later, rfl, rfl, hearlier, hlater⟩ := hb
        refine ⟨best, earlier ++ later ++ [o], ⟨earlier, later ++ [o], by simp, by simp, hearlier,
          fun x hx => ?_⟩, ?_⟩
        · rcases List.mem_append.mp hx with hx | hx
          · exact hlater x hx
          · rw [List.mem_singleton.mp hx]
            exact hlt
        · rw [ranked_concat, hranked, List.reverse_cons, place_concat hlt, List.reverse_append,
            ranked_concat]
          rfl

/-! ## 4. What an outcome is worth -/

/-- What is worth more comes first. -/
theorem rank_of_worth {a b : Outcome} (hworth : b.relevance < a.relevance) :
    h.rank a b = .lt := by
  unfold rank
  rw [Nat.compare_eq_lt.mpr hworth]
  rfl

/-- What comes after another one is worth no more. -/
theorem relevance_le_of_rank {a b : Outcome} (hrank : h.rank a b ≠ .lt) :
    a.relevance ≤ b.relevance :=
  Nat.le_of_not_lt fun hworth => hrank (rank_of_worth hworth)

/-- Of two languages that are worth the same, the one that extends the other comes first. -/
theorem rank_of_extends {a b : Outcome} (hworth : a.relevance = b.relevance) {m n : String}
    (hm : a.language = some m) (hn : b.language = some n) (hext : h.extendsLanguage m n = true) :
    h.rank a b = .lt := by
  unfold rank
  rw [hworth, Nat.compare_eq_eq.mpr rfl, hm, hn]
  simp [hext]

/-- Plain text comes after an outcome only if that is worth something. -/
theorem relevance_of_plain_gt (hrank : h.rank (.plain code) o = .gt) : 0 < o.relevance := by
  have heq : h.rank (.plain code) o = (compare o.relevance 0).then .eq := rfl
  rw [heq] at hrank
  cases hc : compare o.relevance 0 with
  | gt => exact Nat.compare_eq_gt.mp hc
  | lt | eq =>
    rw [hc] at hrank
    cases hrank

/-- A run in a language that was not completed is worth nothing. -/
theorem completed_or_worthless {name : String}
    (ho : (h.highlight name code false none).result = .ok o) :
    o.ending = .completed ∨ o.relevance = 0 := by
  unfold highlight at ho
  cases hdepth : h.depthFor code with
  | zero =>
    rw [hdepth] at ho
    cases ho
  | succ depth =>
    rw [hdepth] at ho
    change (h.runIn (h.runAt depth) name code false none).result = .ok o at ho
    unfold runIn at ho
    split at ho
    · cases ho
    · obtain ⟨-, ⟨-, hending, -⟩ | ⟨f, -, -, -, -, -, hworth⟩⟩ := runArena_ok ho
      · exact .inl hending
      · exact .inr hworth

/-- **Plain text is the best outcome where no other one is worth something.** -/
theorem plain_best_iff (hb : h.BestOf (.plain code :: os) best rest)
    (hc : h.Consistent (.plain code :: os)) :
    best = .plain code ↔ ∀ o ∈ os, o.relevance = 0 := by
  constructor
  · rintro rfl o ho
    exact Nat.le_zero.mp (relevance_le_of_rank (hb.rank_ne_lt hc (List.mem_cons_of_mem _ ho)))
  · intro hworthless
    obtain ⟨earlier, later, heq, -, hearlier, -⟩ := hb
    cases earlier with
    | nil => exact (List.cons.inj heq).1.symm
    | cons first earlier =>
      -- Plain text stands earlier than the best outcome, which is worth something then.
      obtain ⟨rfl, rfl⟩ := List.cons.inj heq
      have hworth := relevance_of_plain_gt (hearlier _ List.mem_cons_self)
      have hnone := hworthless best (List.mem_append_right earlier List.mem_cons_self)
      omega

/-! ## 5. The outcome that is found -/

/-- **What detection has found**, given who could take part: every one of them has an outcome or has
    met something forbidden, and among these outcomes and plain text two are the best. -/
structure Found (h : Highlighter) (code : String) (names : List String) (os : List Outcome)
    (d : Detection) : Prop where
  tried : ∀ name ∈ names, (∃ o ∈ os, (h.highlight name code false none).result = .ok o) ∨
    ∃ f, (h.highlight name code false none).result = .error f ∧ f.cause.isIllegal = true
  worth_le : ∀ o ∈ os, o.relevance ≤ d.best.relevance
  plain_iff : d.best = .plain code ↔ ∀ o ∈ os, o.relevance = 0
  completed : d.best = .plain code ∨ d.best ∈ os ∧ d.best.ending = .completed
  not_before : ∀ o ∈ os, h.rank o d.best ≠ .lt
  not_extended : ∀ o ∈ os, o.relevance = d.best.relevance →
    ∀ m n, o.language = some m → d.best.language = some n → h.extendsLanguage m n = false
  in_order : ∃ rest, h.BestOf (.plain code :: os) d.best rest ∧
    ((rest = [] ∧ d.secondBest = none) ∨
      ∃ second others, d.secondBest = some second ∧ h.BestOf rest second others)
  second_iff : d.secondBest = none ↔ os = []

/-- The first two outcomes in order are the best one and the best one of the others. -/
theorem choose_of_consistent (hc : h.Consistent (.plain code :: os)) :
    ∃ rest, h.BestOf (.plain code :: os) (h.choose code (.plain code :: os)).best rest ∧
      ((rest = [] ∧ (h.choose code (.plain code :: os)).secondBest = none) ∨
        ∃ second others, (h.choose code (.plain code :: os)).secondBest = some second ∧
          h.BestOf rest second others) := by
  obtain ⟨best, rest, hb, hranked⟩ := bestOf_ranked hc (List.cons_ne_nil _ _)
  have hchoose : h.choose code (.plain code :: os) = ⟨best, (h.ranked rest).head?⟩ := by
    unfold choose
    rw [hranked]
  rw [hchoose]
  refine ⟨rest, hb, ?_⟩
  by_cases hrest : rest = []
  · subst hrest
    exact .inl ⟨rfl, rfl⟩
  · obtain ⟨second, others, hsecond, hranked⟩ := bestOf_ranked (hc.of_subset hb.subset) hrest
    exact .inr ⟨second, others, by rw [hranked]; rfl, hsecond⟩

/-- All but the best of some outcomes are as many less one. -/
theorem BestOf.length (hb : h.BestOf os best rest) : os.length = rest.length + 1 := by
  obtain ⟨earlier, later, rfl, rfl, -, -⟩ := hb
  simp [Nat.add_assoc]

/-- **Detection finds the best outcome.** The languages that the candidates stand for take part,
    each once, and so does plain text. If their outcomes compare as in an order, then none of them is
    worth more than the one that is found or comes before it, and plain text is found where none of
    them is worth something. The next best outcome is the best of the others. -/
theorem detection_finds_best (hd : (h.highlightAuto code candidates).result = .ok d)
    (hc : h.Consistent (.plain code :: h.candidateOutcomes candidates code)) :
    h.Found code
      (((((candidates <|> h.options.languages).getD h.languages).filterMap
        h.canonicalName).eraseDups).filter h.autoDetection)
      (h.candidateOutcomes candidates code) d := by
  rw [← takingPart_eq]
  unfold highlightAuto at hd
  rw [detect_eq] at hd
  obtain ⟨os, hos, hd⟩ := Attempt.result_bind_eq_ok hd
  obtain ⟨heq, htried⟩ := tryAll_ok hos
  change os = h.candidateOutcomes candidates code at heq
  rw [← heq] at hc ⊢
  cases hd
  have htried : ∀ name ∈ h.takingPart candidates,
      (∃ o ∈ os, (h.highlight name code false none).result = .ok o) ∨
        ∃ f, (h.highlight name code false none).result = .error f ∧ f.cause.isIllegal = true :=
    fun name hname => (htried name hname).imp_left fun ⟨o, ho⟩ =>
      ⟨o, heq ▸ mem_outcomesOf hname ho, ho⟩
  obtain ⟨rest, hb, hsecond⟩ := choose_of_consistent hc
  have hbefore := fun o (ho : o ∈ os) => hb.rank_ne_lt hc (List.mem_cons_of_mem _ ho)
  refine ⟨htried, fun o ho => relevance_le_of_rank (hbefore o ho), plain_best_iff hb hc, ?_,
    hbefore, fun o ho hworth m n hm hn => Bool.eq_false_iff.mpr fun hext => ?_,
    ⟨rest, hb, hsecond⟩, ?_⟩
  · refine (best_choose h code os).imp_right fun ⟨hmem, hworth⟩ => ⟨hmem, ?_⟩
    obtain ⟨name, -, hrun⟩ := mem_tryAll hos hmem
    exact (completed_or_worthless hrun).resolve_right (Nat.ne_of_gt hworth)
  · exact hbefore o ho (rank_of_extends hworth hm hn hext)
  · -- There is a next best outcome where there is any other than the best.
    have hlength : os.length = rest.length := Nat.succ.inj hb.length
    rw [← List.length_eq_zero_iff, hlength, List.length_eq_zero_iff]
    rcases hsecond with ⟨hrest, hnone⟩ | ⟨second, others, hsome, hsecond⟩
    · exact ⟨fun _ => hrest, fun _ => hnone⟩
    · have hrest : rest ≠ [] := List.ne_nil_of_mem hsecond.mem
      simp [hsome, hrest]

/-- A language, and one that extends it. -/
def baseAndExtended : Except Fault Highlighter := do
  let base : Grammar.Language := { mode := { keywords := some (.words "foo") } }
  let h ← (new {}).register "base" (.constant base)
  h.register "extended" (.constant { base with supersetOf := some "Base" })

/-- Of a language and one that extends it the latter is found, and then the former, whichever of
    them is named first and how often. -/
theorem extended_language_is_found : ∃ h d, baseAndExtended = .ok h ∧
    (h.highlightAuto "foo" (some ["BASE", "extended", "none", "base"])).result = .ok d ∧
    d.best.language = some "extended" ∧ d.best.relevance = 1 ∧
    d.secondBest.bind (·.language) = some "base" ∧
    h.Found "foo" ["base", "extended"]
      (h.candidateOutcomes (some ["BASE", "extended", "none", "base"]) "foo") d := by
  have hcheck : passes baseAndExtended (fun h =>
      let os := .plain "foo" ::
        h.candidateOutcomes (some ["BASE", "extended", "none", "base"]) "foo"
      os.all (fun a => os.all fun b => h.rank b a == (h.rank a b).swap &&
        os.all fun c => h.rank a b == .gt || h.rank b c == .gt || h.rank a c != .gt) &&
      ((["BASE", "extended", "none", "base"].filterMap h.canonicalName).eraseDups).filter
        h.autoDetection == ["base", "extended"] &&
      passes (h.highlightAuto "foo" (some ["BASE", "extended", "none", "base"])).result fun d =>
        d.best.language == some "extended" && d.best.relevance == 1 &&
          d.secondBest.bind (·.language) == some "base") = true := by decide +kernel
  obtain ⟨h, hh, hcheck⟩ := exists_of_passes hcheck
  simp only [Bool.and_eq_true, List.all_eq_true, beq_iff_eq, Bool.or_eq_true, bne_iff_ne] at hcheck
  obtain ⟨⟨hrank, hnames⟩, hrun⟩ := hcheck
  obtain ⟨d, hd, hfound⟩ := exists_of_passes hrun
  simp only [Bool.and_eq_true, beq_iff_eq] at hfound
  obtain ⟨⟨hbest, hworth⟩, hsecond⟩ := hfound
  have hc : h.Consistent (.plain "foo" ::
      h.candidateOutcomes (some ["BASE", "extended", "none", "base"]) "foo") :=
    ⟨fun a ha b hb => (hrank a ha b hb).1, fun a ha b hb c hc hab hbc =>
      (((hrank a ha b hb).2 c hc).resolve_left fun hgt => hgt.elim hab hbc)⟩
  have hall := detection_finds_best hd hc
  rw [show ((some ["BASE", "extended", "none", "base"] <|> h.options.languages).getD h.languages) =
    ["BASE", "extended", "none", "base"] from rfl, hnames] at hall
  exact ⟨h, d, hh, hd, hbest, hworth, hsecond, hall⟩

end Highlight.Highlighter
