import Highlight.Proofs.Highlighting.Answers
import Highlight.Proofs.Highlighting.SafeMode
import Highlight.Proofs.Scan.Likeness

/-!
# Strict and lenient runs

In debug mode, with forbidden text heeded, a run can end in a fault where a lenient one goes on or is
recovered. Where it does not, all runs come to the same.

* `strictly`, `Relaxes` -- what strict and lenient runs may differ in, and what a lenient run makes
  of a strict one;
* `not_illegal_of_ignoring` -- a run that ignores what is forbidden never fails for it;
* `Padded`, `best_choose_of_padded` -- outcomes that are worth nothing do not change which is best;
* `relaxes_runArena`, `relaxes_runAt` -- one run, and runs inside runs;
* `lenient_of_strict` -- what a strict call answers, every call answers.
-/

namespace Highlight.Highlighter

open Highlight.Grammar (SubLanguage)
open Highlight.Scan (Attempt Leeway Scanned Scene StepFails)
open Highlight.Scan.Leeway
open Highlight.Token (Guise)

variable {h : Highlighter} {name code : String} {arena : Arena} {ignoreIllegals : Bool}
  {continuation : Option (List Nat)} {o : Outcome} {f : Fault}

/-! ## 1. What is ignored is no fault -/

/-- A nested run does not fail for something forbidden, if no run does that ignores it. -/
theorem not_illegal_of_delegateTo {run : Runner}
    (hrun : ∀ {name code continuation f}, (run name code true continuation).result = .error f →
      f.cause.isIllegal = false) {sub : SubLanguage} {text : String}
    (hf : (h.delegateTo run).Fails sub text f) : f.cause.isIllegal = false := by
  obtain ⟨continuation, x, hask, hx⟩ := hf
  have hbest : ∀ candidates, ((h.delegateTo run).best candidates text).result = .error f →
      f.cause.isIllegal = false := by
    intro candidates hres
    obtain ⟨_, _, _, hillegal⟩ := fails_detect (Attempt.result_of_bind_pure_error hres)
    exact hillegal
  cases sub with
  | single name =>
    obtain ⟨arena, _, rfl⟩ := Option.map_eq_some_iff.mp hask
    exact hrun (Attempt.result_of_bind_pure_error hx)
  | list names =>
    cases hask
    exact hbest _ hx
  | any =>
    cases hask
    exact hbest _ hx

/-- **A run that ignores what is forbidden never fails for it**, nor does a run inside it. -/
theorem not_illegal_of_ignoring (hall : h.AllCompiled) : ∀ (depth : Nat) {name code : String}
    {continuation : Option (List Nat)} {f : Fault},
      (h.runAt depth name code true continuation).result = .error f → f.cause.isIllegal = false
  | 0, _, _, _, _, hf => by
      cases hf
      rfl
  | depth + 1, name, code, continuation, f, hf => by
      cases hl : h.language? name with
      | none =>
        have hunknown : h.runAt (depth + 1) name code true continuation = .fail (unknown name) :=
          runAt_unknown (c := ⟨name, code, true, continuation⟩) hl depth
        rw [hunknown] at hf
        cases hf
        rfl
      | some arena =>
        rw [runAt_succ hl] at hf
        obtain ⟨n, language, hc⟩ := hall name arena hl
        rcases Scan.fault_scanAll hc (runArena_error hf).1 with
          ⟨_, _, cause, _, hmerge, rfl⟩ | hloses | hstep
        · obtain ⟨pattern, message, rfl⟩ := Arena.RuleSet.mergedFrom_error hmerge
          rfl
        · cases hloses
          rfl
        · cases hstep with
          | panicked _ _ _ => rfl
          | delegated _ hfails =>
            exact not_illegal_of_delegateTo (not_illegal_of_ignoring hall depth) hfails
          | illegal lexeme mode i hheeded => cases hheeded
          | zeroWidth _ _ => rfl

/-! ## 2. Outcomes that are worth nothing -/

/-- The second list of outcomes has further ones among those of the first, which are worth
    nothing. -/
inductive Padded : List Outcome → List Outcome → Prop
  | nil : Padded [] []
  | keep (o : Outcome) {os os' : List Outcome} : Padded os os' → Padded (o :: os) (o :: os')
  | pad {o : Outcome} {os os' : List Outcome} : o.relevance = 0 → Padded os os' →
      Padded os (o :: os')

section Best

variable (hbase : ∀ name, h.supersetOf name = none)

include hbase

/-- Where no language extends another, outcomes compare by what they are worth. -/
theorem rank_eq_lt_iff (a b : Outcome) : h.rank a b = .lt ↔ b.relevance < a.relevance := by
  have hext : ∀ a b, h.extendsLanguage a b = false := fun a b => by
    unfold extendsLanguage
    rw [hbase]
    rfl
  have hrank : h.rank a b = compare b.relevance a.relevance := by
    have heq : ∀ x : Ordering, x.then .eq = x := fun x => by cases x <;> rfl
    unfold rank
    cases a.language with
    | none => exact heq _
    | some a =>
      cases b.language with
      | none => exact heq _
      | some b =>
        simp only [hext, Bool.false_eq_true, if_false]
        exact heq _
  rw [hrank, Nat.compare_eq_lt]

/-- **Behind plain text stands what is worth nothing**: the outcomes placed so far, where `ahead`
    come before plain text, the last one first. -/
def Ahead (code : String) (ahead placed : List Outcome) : Prop :=
  ∃ behind, placed = behind ++ .plain code :: ahead ∧ ∀ o ∈ behind, o.relevance = 0

omit hbase in
theorem ahead_plain (h : Highlighter) (code : String) :
    Ahead code [] (h.place (.plain code) []) :=
  ⟨[], rfl, fun _ ho => by cases ho⟩

/-- An outcome that is worth nothing is placed behind plain text. -/
theorem ahead_place_zero {ahead placed : List Outcome} (ho : o.relevance = 0)
    (hp : Ahead code ahead placed) : Ahead code ahead (h.place o placed) := by
  obtain ⟨behind, rfl, hbehind⟩ := hp
  have hfirst : ∀ last, ¬ h.rank o last = .lt := fun last => by
    rw [rank_eq_lt_iff hbase, ho]
    exact Nat.not_lt_zero _
  refine ⟨o :: behind, ?_, ?_⟩
  · cases behind with
    | nil => simp [place, hfirst]
    | cons last behind => simp [place, hfirst]
  · exact List.forall_mem_cons.mpr ⟨ho, hbehind⟩

/-- An outcome that is worth something is placed among those before plain text. -/
theorem ahead_place_pos {ahead placed : List Outcome} (ho : 0 < o.relevance)
    (hp : Ahead code ahead placed) : Ahead code (h.place o ahead) (h.place o placed) := by
  obtain ⟨behind, rfl, hbehind⟩ := hp
  have hpass : ∀ last : Outcome, last.relevance = 0 → ∀ earlier,
      h.place o (last :: earlier) = last :: h.place o earlier := by
    intro last hlast earlier
    have hrank : h.rank o last = .lt := (rank_eq_lt_iff hbase o last).mpr (by omega)
    simp [place, hrank]
  refine ⟨behind, ?_, hbehind⟩
  induction behind with
  | nil => exact hpass _ rfl ahead
  | cons last behind ih =>
    obtain ⟨hlast, hbehind⟩ := List.forall_mem_cons.mp hbehind
    rw [List.cons_append, hpass last hlast, ih hbehind, List.cons_append]

/-- Placing outcomes, those that are worth nothing can be left out. -/
theorem ahead_of_padded {os os' : List Outcome} (hpad : Padded os os') :
    ∀ {ahead placed placed' : List Outcome}, Ahead code ahead placed → Ahead code ahead placed' →
      ∃ ahead', Ahead code ahead' (os.foldl (fun placed o => h.place o placed) placed) ∧
        Ahead code ahead' (os'.foldl (fun placed o => h.place o placed) placed') := by
  induction hpad with
  | nil => exact fun hp hp' => ⟨_, hp, hp'⟩
  | keep o _ ih =>
    intro ahead placed placed' hp hp'
    rcases Nat.eq_zero_or_pos o.relevance with ho | ho
    · exact ih (ahead_place_zero hbase ho hp) (ahead_place_zero hbase ho hp')
    · exact ih (ahead_place_pos hbase ho hp) (ahead_place_pos hbase ho hp')
  | pad ho _ ih => exact fun hp hp' => ih hp (ahead_place_zero hbase ho hp')

/-- **Outcomes that are worth nothing do not change which outcome is best.** -/
theorem best_choose_of_padded {os os' : List Outcome} (hpad : Padded os os') (code : String) :
    (h.choose code (.plain code :: os')).best = (h.choose code (.plain code :: os)).best := by
  have hbest : ∀ {os ahead : List Outcome},
      Ahead code ahead (os.foldl (fun placed o => h.place o placed) (h.place (.plain code) [])) →
      (h.choose code (.plain code :: os)).best = ahead.reverse.headD (.plain code) := by
    rintro os ahead ⟨behind, heq, _⟩
    unfold choose ranked
    rw [List.foldl_cons, heq, List.reverse_append, List.reverse_cons, List.append_assoc]
    cases ahead.reverse with
    | nil => rfl
    | cons best others => rfl
  obtain ⟨ahead, hp, hp'⟩ :=
    ahead_of_padded hbase hpad (ahead_plain h code) (ahead_plain h code)
  rw [hbest hp, hbest hp']

end Best

/-! ## 3. What a lenient run makes of a strict one -/

/-- **What a lenient run makes of a strict one**: the same, if that has a result. Where that has met
    something forbidden, it fails alike, or its outcome is worth nothing. -/
structure Relaxes (x y : Attempt Outcome) : Prop where
  ok : ∀ o, x.result = .ok o → y = x
  illegal : ∀ f, x.result = .error f → f.cause.isIllegal = true →
    y.notes = x.notes ∧ (y.result = x.result ∨ ∃ o, y.result = .ok o ∧ o.relevance = 0)

theorem relaxes_fail (f : Fault) : Relaxes (.fail f) (.fail f) where
  ok _ ho := by cases ho
  illegal _ _ _ := ⟨rfl, .inl rfl⟩

variable {pardons : Fault → Prop}

/-- The outcome of one language and those of others, each relaxed: there can be further ones, which
    are worth nothing. -/
theorem padded_withOthers (hpardons : ∀ f : Fault, f.cause.isIllegal = false → pardons f)
    {x y : Attempt Outcome} {xs ys : Attempt (List Outcome)} (hfirst : Relaxes x y)
    (hothers : (exact True pardons).Agrees Padded xs ys) :
    (exact True pardons).Agrees Padded (withOthers x xs) (withOthers y ys) := by
  have hid : ∀ result : Except Fault (List Outcome), result = result.map id := fun result => by
    cases result <;> rfl
  cases hx : x.result with
  | ok o =>
    rw [hfirst.ok o hx]
    simp only [withOthers, hx]
    exact agrees_map _ hothers fun _ _ => .keep o
  | error f =>
    cases hillegal : f.cause.isIllegal with
    | false => exact .inl ⟨f, by simp [withOthers, hx, hillegal], hpardons f hillegal⟩
    | true =>
      obtain ⟨hnotes, hsame | ⟨o, ho, hworth⟩⟩ := hfirst.illegal f hx hillegal
      · simp only [withOthers, hsame, hx, hillegal, hnotes, if_true]
        rw [hid xs.result, hid ys.result]
        exact agrees_map _ hothers fun _ _ h => h
      · simp only [withOthers, ho, hx, hillegal, hnotes, if_true]
        rw [hid xs.result]
        exact agrees_map _ hothers fun _ _ h => .pad hworth h

/-- **The outcomes of several languages**, each relaxed. -/
theorem padded_tryAll (hpardons : ∀ f : Fault, f.cause.isIllegal = false → pardons f)
    {run run' : String → Attempt Outcome} (hrun : ∀ name, Relaxes (run name) (run' name)) :
    ∀ names : List String,
      (exact True pardons).Agrees Padded (tryAll run names) (tryAll run' names)
  | [] => agrees_pure .nil
  | name :: names => by
      rw [tryAll_cons, tryAll_cons]
      exact padded_withOthers hpardons (hrun name) (padded_tryAll hpardons hrun names)

/-! ## 4. Runs inside runs -/

variable {safe : Bool}

/-- Which outcome fits best does not depend on safe mode. -/
theorem choose_setSafeMode (h : Highlighter) (on : Bool) : (h.setSafeMode on).choose = h.choose :=
  choose_congr (rank_congr rfl rfl)

/-- Who takes part does not depend on safe mode. -/
theorem takingPart_setSafeMode (h : Highlighter) (on : Bool) (candidates : Option (List String)) :
    (h.setSafeMode on).takingPart candidates = h.takingPart candidates := by
  have hname : (h.setSafeMode on).canonicalName = h.canonicalName := rfl
  exact participants_congr hname rfl _ []

/-- **What is handed on comes to the same**, if runs are relaxed and none fails for what it
    ignores. -/
theorem sameDelegate_of_relaxes (hpardons : ∀ f : Fault, f.cause.isIllegal = false → pardons f)
    (hbase : ∀ name, h.supersetOf name = none) {run run' : Runner}
    (hrun : ∀ name code ignoreIllegals continuation,
      Relaxes (run name code ignoreIllegals continuation)
        (run' name code ignoreIllegals continuation))
    (hspared : ∀ {name code continuation f}, (run name code true continuation).result = .error f →
      f.cause.isIllegal = false) (sub : SubLanguage) :
    (exact True pardons).SameDelegate ((h.setSafeMode false).delegateTo run)
      ((h.setSafeMode safe).delegateTo run') sub where
  labels _ := rfl
  single name _ _ u hu stack := by
    obtain rfl := hu.eq fun _ => rfl
    show Option.Rel _ ((h.language? name).map _) ((h.language? name).map _)
    cases h.language? name with
    | none => exact .none
    | some arena =>
      refine .some (agrees_bind (P := Eq) (agrees_of_ok (hrun name u true stack).ok ?_) ?_)
      · exact fun f hf => hpardons f (hspared hf)
      · rintro o _ rfl
        exact agrees_pure ⟨rfl, rfl, rfl, fun _ => rfl⟩
  best _ _ u hu names := by
    obtain rfl := hu.eq fun _ => rfl
    have hdetect : (exact True pardons).Agrees (fun d d' => d'.best = d.best)
        ((h.setSafeMode false).detect (fun name => run name u false none) names u)
        ((h.setSafeMode safe).detect (fun name => run' name u false none) names u) := by
      rw [detect_eq, detect_eq, takingPart_setSafeMode, takingPart_setSafeMode]
      refine agrees_bind (padded_tryAll hpardons (fun name => hrun name u false none) _)
        fun os os' hos => agrees_pure ?_
      rw [choose_setSafeMode, choose_setSafeMode]
      exact best_choose_of_padded hbase hos u
    refine agrees_bind hdetect fun d d' hd => agrees_pure ?_
    rw [hd]
    exact ⟨rfl, rfl, rfl, fun _ => rfl⟩

/-- The same text in the same language, read strictly and otherwise. -/
theorem sameScene_of_strict (h : Highlighter) (safe : Bool)
    (hpardons : ∀ f : Fault, f.cause.isIllegal = false → pardons f)
    {d d' : Scan.Delegate} (hd : ∀ sub, (exact True pardons).SameDelegate d d' sub)
    (arena : Arena) (code : String) {ignores ignores' : Bool}
    (hignores : ignores' = ignores ∨
      (ignores = false ∧ ∀ f : Fault, f.cause.isIllegal = true → pardons f)) :
    (exact True pardons).SameScene ((h.setSafeMode false).sceneOf d arena code ignores)
      ((h.setSafeMode safe).sceneOf d' arena code ignores') where
  arena := .of_plain (fun _ => rfl) (fun _ => rfl) arena
  text := rfl
  floor := rfl
  ratio := rfl
  hits _ := rfl
  guard := .inr ⟨rfl, fun _ => hpardons _ rfl⟩
  illegals := hignores
  delegate _ sub _ := hd sub

/-- In debug mode a fault that has ended a run stays one. -/
theorem conclude_of_fault {top : List Nat} {s : Scanned} (hf : s.fault = some f) :
    (h.setSafeMode false).conclude arena code top s = .error f := by
  unfold conclude
  rw [hf]
  simp [recover, setSafeMode]

/-- What a run that has ended in a fault comes to is that fault, or worth nothing. -/
theorem conclude_or_recovered {top : List Nat} {s : Scanned} (hf : s.fault = some f) :
    h.conclude arena code top s = .error f ∨
      ∃ o, h.conclude arena code top s = .ok o ∧ o.relevance = 0 := by
  unfold conclude
  rw [hf]
  simp only [recover]
  split
  · exact .inl rfl
  · exact .inr ⟨_, rfl, rfl⟩

/-- What has been scanned to the end is concluded alike by all. -/
theorem conclude_of_completed {h' : Highlighter} {top : List Nat} {s : Scanned}
    (hf : s.fault = none) : h'.conclude arena code top s = h.conclude arena code top s := by
  unfold conclude
  rw [hf]

/-- Runs that come to the same where everything counts are equal, unless the second is excused. -/
theorem eq_of_sameScanned {x y : Scanned} (hs : (exact True pardons).SameScanned x y) :
    (∃ f, x.fault = some f ∧ pardons f) ∨ y = x := by
  cases hs with
  | pardoned hf hpardon => exact .inl ⟨_, hf, hpardon⟩
  | same hevents hrelevance hfault =>
    refine .inr ?_
    obtain rfl := Guise.SameEvents.eq (fun _ => rfl) (fun _ => rfl) hevents
    obtain rfl := hrelevance trivial
    cases hfault with
    | none => rfl
    | some hf => rw [hf.eq fun _ => rfl]

section Arena

variable {d d' : Scan.Delegate} {ignores ignores' : Bool}

/-- **A lenient run in a language comes to the same as a strict one with a result.** -/
theorem runArena_of_strict (pardons : Fault → Prop)
    (hpardons : ∀ f : Fault, f.cause.isIllegal = false → pardons f)
    (hd : ∀ sub, (exact True pardons).SameDelegate d d' sub)
    (hignores : ignores' = ignores ∨
      (ignores = false ∧ ∀ f : Fault, f.cause.isIllegal = true → pardons f))
    (ho : ((h.setSafeMode false).runArena d arena code ignores continuation).result = .ok o) :
    (h.setSafeMode safe).runArena d' arena code ignores' continuation =
      (h.setSafeMode false).runArena d arena code ignores continuation := by
  have hs := sameScene_of_strict h safe hpardons hd arena code hignores
  have hfault : (Scan.scanAll ((h.setSafeMode false).sceneOf d arena code ignores)
      continuation).fault = none := by
    cases hf : (Scan.scanAll ((h.setSafeMode false).sceneOf d arena code ignores)
        continuation).fault with
    | none => rfl
    | some f =>
      simp only [runArena] at ho
      rw [conclude_of_fault hf] at ho
      cases ho
  rcases eq_of_sameScanned (same_scanAll hs continuation) with ⟨f, hf, _⟩ | hsame
  · cases hfault.symm.trans hf
  · unfold runArena
    simp only [hs.stack, hsame]
    rw [conclude_of_completed hfault]

/-- **A run in a language is relaxed**, if what it hands on comes to the same. -/
theorem relaxes_runArena
    (hd : ∀ sub, (exact True fun f => f.cause.isIllegal = false).SameDelegate d d' sub) :
    Relaxes ((h.setSafeMode false).runArena d arena code ignores continuation)
      ((h.setSafeMode safe).runArena d' arena code ignores continuation) := by
  refine ⟨fun o ho => runArena_of_strict _ (fun _ hf => hf) hd (.inl rfl) ho, fun f hf hillegal => ?_⟩
  have hs := sameScene_of_strict h safe (fun _ hf => hf) hd arena code
    (.inl (Eq.refl ignores))
  have hfault := (runArena_error hf).1
  rcases eq_of_sameScanned (same_scanAll hs continuation) with ⟨f', hf', hpardon⟩ | hsame
  · cases hfault.symm.trans hf'
    cases hpardon.symm.trans hillegal
  · rw [hf]
    unfold runArena
    simp only [hs.stack, hsame]
    exact ⟨trivial, conclude_or_recovered hfault⟩

end Arena

/-- **Every run is relaxed**, however deep, where no language extends another. -/
theorem relaxes_runAt (hall : h.AllCompiled) (hbase : ∀ name, h.supersetOf name = none)
    (safe : Bool) : ∀ (depth : Nat) (name code : String) (ignores : Bool)
      (continuation : Option (List Nat)),
      Relaxes ((h.setSafeMode false).runAt depth name code ignores continuation)
        ((h.setSafeMode safe).runAt depth name code ignores continuation)
  | 0, _, _, _, _ => relaxes_fail _
  | depth + 1, name, code, ignores, continuation => by
      cases hl : h.language? name with
      | none =>
        have hunknown : ∀ on, (h.setSafeMode on).runAt (depth + 1) name code ignores continuation =
            .fail (unknown name) := fun on =>
          runAt_unknown (h := h.setSafeMode on) (c := ⟨name, code, ignores, continuation⟩) hl depth
        rw [hunknown, hunknown]
        exact relaxes_fail _
      | some arena =>
        have hl' : ∀ on, (h.setSafeMode on).language? name = some arena := fun _ => hl
        rw [runAt_succ (hl' false), runAt_succ (hl' safe)]
        exact relaxes_runArena (sameDelegate_of_relaxes (fun _ hf => hf) hbase
          (relaxes_runAt hall hbase safe depth)
          (not_illegal_of_ignoring (h := h.setSafeMode false) hall depth))

/-! ## 5. Calls -/

/-- **Strictness only turns results into faults.** Where no language extends another, what a call
    answers in debug mode, with forbidden text heeded, every such call answers: in safe mode or not,
    and whether forbidden text is heeded or not. Its outcome is the same, and so is what is
    written. -/
theorem lenient_of_strict (hb : Built h)
    (hbase : h.AllRegistered fun arena => arena.supersetOf = none)
    (ho : ((h.setSafeMode false).highlight name code false continuation).result = .ok o)
    (safe ignores : Bool) :
    (h.setSafeMode safe).highlight name code ignores continuation =
        (h.setSafeMode false).highlight name code false continuation ∧
      ∀ sink, o.write sink (h.setSafeMode safe).options code =
        o.write sink (h.setSafeMode false).options code := by
  refine ⟨?_, fun _ => rfl⟩
  have hall := allCompiled_of_built hb
  have hsuper : ∀ name, h.supersetOf name = none := by
    intro name
    unfold supersetOf
    cases hl : h.language? name with
    | none => rfl
    | some arena => simp [show arena.supersetOf = none from hbase.language? hl]
  show (h.setSafeMode safe).runAt (h.depthFor code) name code ignores continuation =
    (h.setSafeMode false).runAt (h.depthFor code) name code false continuation
  have ho : ((h.setSafeMode false).runAt (h.depthFor code) name code false
    continuation).result = .ok o := ho
  generalize h.depthFor code = depth at ho ⊢
  cases depth with
  | zero => cases ho
  | succ depth =>
    cases hl : h.language? name with
    | none =>
      have hunknown : (h.setSafeMode false).runAt (depth + 1) name code false continuation =
          .fail (unknown name) :=
        runAt_unknown (h := h.setSafeMode false) (c := ⟨name, code, false, continuation⟩) hl depth
      rw [hunknown] at ho
      cases ho
    | some arena =>
      have hl' : ∀ on, (h.setSafeMode on).language? name = some arena := fun _ => hl
      rw [runAt_succ (hl' false)] at ho
      rw [runAt_succ (hl' false), runAt_succ (hl' safe)]
      refine runArena_of_strict (fun _ => True) (fun _ _ => trivial) ?_ ?_ ho
      · exact sameDelegate_of_relaxes (fun _ _ => trivial) hsuper (relaxes_runAt hall hsuper safe depth)
          (not_illegal_of_ignoring (h := h.setSafeMode false) hall depth)
      · exact .inr ⟨rfl, fun _ _ => trivial⟩

/-- Three languages: one of words, one in which `#` is forbidden, and one that hands the text between
    angle brackets to whichever of the others fits best. -/
def threeLanguages : Except Fault Highlighter := do
  let words : Grammar.Language := { mode := { keywords := some (.words "let") } }
  let outer : Grammar.Language := {
    disableAutodetect := true
    mode := {
      contains := some [.mode ⟨[("block", 0)], {
        beginPattern := some (.single "<")
        endPattern := some (.single ">")
        subLanguage := some .any }⟩] } }
  let h ← (new {}).register "words" (.constant words)
  let h ← h.register "strict" (.constant strictLanguage)
  h.register "outer" (.constant outer)

theorem built_threeLanguages (hh : threeLanguages = .ok h) : Built h := by
  simp only [threeLanguages, bind, Except.bind] at hh
  split at hh
  · cases hh
  · rename_i h1 hh1
    split at hh
    · cases hh
    · rename_i h2 hh2
      exact .register (.register (.register (.new {}) hh1) hh2) hh

/-- A candidate that has met something forbidden is left out in debug mode, and worth nothing in safe
    mode: the same language is found to fit best. -/
theorem detection_in_safe_mode : ∃ h o, threeLanguages = .ok h ∧
    ((h.setSafeMode false).runAt 1 "strict" "<let #>" false none).result.isOk = false ∧
    ((h.setSafeMode true).runAt 1 "strict" "<let #>" false none).result.isOk = true ∧
    ((h.setSafeMode false).highlight "outer" "a <let #> b" false none).result = .ok o ∧
    0 < o.relevance ∧
    (h.setSafeMode true).highlight "outer" "a <let #> b" false none =
      (h.setSafeMode false).highlight "outer" "a <let #> b" false none := by
  have hcheck : passes threeLanguages (fun h =>
      h.registered.entries.all (·.2.arena.supersetOf.isNone) &&
      !((h.setSafeMode false).runAt 1 "strict" "<let #>" false none).result.isOk &&
      ((h.setSafeMode true).runAt 1 "strict" "<let #>" false none).result.isOk &&
      passes ((h.setSafeMode false).highlight "outer" "a <let #> b" false none).result fun o =>
        0 < o.relevance) = true := by decide +kernel
  obtain ⟨h, hh, hcheck⟩ := exists_of_passes hcheck
  simp only [Bool.and_eq_true, Bool.not_eq_true'] at hcheck
  obtain ⟨⟨⟨hbase, hstrict⟩, hsafe⟩, hrun⟩ := hcheck
  obtain ⟨o, ho, hworth⟩ := exists_of_passes hrun
  refine ⟨h, o, hh, hstrict, hsafe, ho, by simpa using hworth, ?_⟩
  refine (lenient_of_strict (built_threeLanguages hh) (fun e he => ?_) ho true false).1
  simpa using List.all_eq_true.mp hbase e he

end Highlight.Highlighter
