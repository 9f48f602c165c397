import Highlight.Highlighting
import Highlight.Proofs.Scan.Attempts

/-!
# What runs and detections come to

* `Highlighter.passes` -- that something has been had, and passes a test;
* `Highlighter.runArena_ok`, `Highlighter.runArena_error` -- a run in a language, by what was
  scanned;
* `Highlighter.mem_tryAll`, `Highlighter.fails_tryAll` -- the outcomes of several languages;
* `Highlighter.BehindPlain` -- where plain text stands among the outcomes placed so far: only
  outcomes that are worth something come before it;
* `Highlighter.best_detect`, `Highlighter.fails_detect` -- the outcome that fits best.
-/

namespace Highlight.Highlighter

open Highlight.Scan (Attempt Scanned)

variable {h : Highlighter} {delegate : Scan.Delegate} {arena : Arena} {code : String}
  {ignoreIllegals : Bool} {continuation : Option (List Nat)} {o : Outcome} {f : Fault}

/-- Whether something has been had and passes a test. -/
def passes {α : Type} (x : Except Fault α) (test : α → Bool) : Bool :=
  match x with
  | .ok a => test a
  | .error _ => false

theorem exists_of_passes {α : Type} {x : Except Fault α} {test : α → Bool}
    (hx : passes x test = true) : ∃ a, x = .ok a ∧ test a = true := by
  cases x with
  | ok a => exact ⟨a, rfl, hx⟩
  | error f => cases hx

/-! ## 1. Runs -/

/-- **A run that is scanned to its end is completed; any other is recovered in safe mode**, unless it
    had no end, and is worth nothing. -/
theorem runArena_ok
    (ho : (h.runArena delegate arena code ignoreIllegals continuation).result = .ok o) :
    let scanned := Scan.scanAll (h.sceneOf delegate arena code ignoreIllegals) continuation
    o.top = (h.sceneOf delegate arena code ignoreIllegals).stack scanned.frames ∧
    ((scanned.fault = none ∧ o.ending = .completed ∧ o.events = scanned.events) ∨
      (∃ f, scanned.fault = some f ∧ h.options.safeMode = true ∧ f.cause.isEndless = false ∧
        o.ending ≠ .completed ∧ o.events = scanned.events ++ [.finish] ∧ o.relevance = 0)) := by
  simp only [runArena, conclude] at ho
  intro scanned
  split at ho
  · rename_i f hf
    unfold recover at ho
    split at ho
    · cases ho
    · rename_i hsafe
      cases ho
      rw [Bool.or_eq_true, not_or] at hsafe
      refine ⟨rfl, .inr ⟨f, hf, by simpa using hsafe.2, by simpa using hsafe.1, ?_, rfl, rfl⟩⟩
      show (if f.cause.isIllegal then Ending.illegal _ else Ending.failed f) ≠ .completed
      split
      · exact fun h => by cases h
      · exact fun h => by cases h
  · rename_i hf
    cases ho
    exact ⟨rfl, .inl ⟨hf, rfl, rfl⟩⟩

/-- A run that fails was ended by a fault, which had no end or was not to be recovered from. -/
theorem runArena_error
    (hf : (h.runArena delegate arena code ignoreIllegals continuation).result = .error f) :
    (Scan.scanAll (h.sceneOf delegate arena code ignoreIllegals) continuation).fault = some f ∧
    (f.cause.isEndless = true ∨ h.options.safeMode = false) := by
  simp only [runArena, conclude] at hf
  split at hf
  · rename_i f' hf'
    unfold recover at hf
    split at hf
    · rename_i hsafe
      cases hf
      exact ⟨hf', by simpa using hsafe⟩
    · cases hf
  · cases hf

/-! ## 2. Several languages -/

section Detection

variable {run : String → Attempt Outcome}

theorem mem_tryAll : ∀ {names : List String} {os : List Outcome},
    (tryAll run names).result = .ok os → o ∈ os → ∃ name ∈ names, (run name).result = .ok o
  | [], os, h, ho => by
      cases h
      cases ho
  | name :: names, os, h, ho => by
      unfold tryAll at h
      simp only at h
      split at h
      · rename_i first hfirst
        cases hothers : (tryAll run names).result with
        | error f =>
          rw [hothers] at h
          cases h
        | ok others =>
          rw [hothers] at h
          cases h
          rcases List.mem_cons.mp ho with rfl | ho
          · exact ⟨name, List.mem_cons_self, hfirst⟩
          · obtain ⟨n, hn, hrun⟩ := mem_tryAll hothers ho
            exact ⟨n, List.mem_cons_of_mem name hn, hrun⟩
      · split at h
        · obtain ⟨n, hn, hrun⟩ := mem_tryAll h ho
          exact ⟨n, List.mem_cons_of_mem name hn, hrun⟩
        · cases h

theorem fails_tryAll : ∀ {names : List String}, (tryAll run names).result = .error f →
    ∃ name ∈ names, (run name).result = .error f ∧ f.cause.isIllegal = false
  | [], h => by cases h
  | name :: names, h => by
      have hothers : (tryAll run names).result = .error f →
          ∃ n ∈ name :: names, (run n).result = .error f ∧ f.cause.isIllegal = false := by
        intro hf
        obtain ⟨n, hn, hrun⟩ := fails_tryAll hf
        exact ⟨n, List.mem_cons_of_mem name hn, hrun⟩
      unfold tryAll at h
      simp only at h
      split at h
      · cases hrest : (tryAll run names).result with
        | error f' =>
          rw [hrest] at h
          cases h
          exact hothers hrest
        | ok others =>
          rw [hrest] at h
          cases h
      · rename_i f' hfirst
        split at h
        · exact hothers h
        · rename_i hillegal
          cases h
          exact ⟨name, List.mem_cons_self, hfirst, by simpa using hillegal⟩

/-- The languages that take part in a detection among candidates. -/
def takingPart (h : Highlighter) (candidates : Option (List String)) : List String :=
  h.participants [] ((candidates <|> h.options.languages).getD h.languages)

theorem detect_eq (h : Highlighter) (run : String → Attempt Outcome)
    (candidates : Option (List String)) (code : String) :
    h.detect run candidates code =
      (tryAll run (h.takingPart candidates) >>= fun os =>
        pure (h.choose code (.plain code :: os))) := rfl

/-- Who takes part is registered, under the name it takes part by. -/
theorem autoDetection_of_mem {name : String} : ∀ {cs seen : List String},
    name ∈ h.participants seen cs → h.autoDetection name = true
  | [], _, hn => by cases hn
  | c :: cs, seen, hn => by
      unfold participants at hn
      split at hn
      · exact autoDetection_of_mem hn
      · split at hn
        · exact autoDetection_of_mem hn
        · split at hn
          · rename_i hauto
            rcases List.mem_cons.mp hn with rfl | hn
            · exact hauto
            · exact autoDetection_of_mem hn
          · exact autoDetection_of_mem hn

theorem language?_of_autoDetection {name : String} (ha : h.autoDetection name = true) :
    ∃ arena, h.language? name = some arena := by
  unfold autoDetection at ha
  cases hl : h.language? name with
  | none =>
    rw [hl] at ha
    cases ha
  | some arena => exact ⟨arena, rfl⟩

/-! ## 3. The best outcome -/

theorem mem_place {x : Outcome} : ∀ {placed : List Outcome},
    x ∈ h.place o placed → x = o ∨ x ∈ placed
  | [], hx => .inl (List.mem_singleton.mp hx)
  | last :: earlier, hx => by
      unfold place at hx
      split at hx
      · rcases List.mem_cons.mp hx with rfl | hx
        · exact .inr List.mem_cons_self
        · rcases mem_place hx with rfl | hx
          · exact .inl rfl
          · exact .inr (List.mem_cons_of_mem last hx)
      · exact List.mem_cons.mp hx

/-- An outcome that comes before plain text is worth something. -/
theorem relevance_of_rank (hr : h.rank o (.plain code) = .lt) : 0 < o.relevance := by
  have hrank : h.rank o (.plain code) = (compare 0 o.relevance).then .eq := by
    unfold rank
    show (compare 0 o.relevance).then _ = _
    cases o.language <;> rfl
  rw [hrank] at hr
  cases hc : compare 0 o.relevance with
  | lt => exact Nat.compare_eq_lt.mp hc
  | eq =>
    rw [hc] at hr
    cases hr
  | gt =>
    rw [hc] at hr
    cases hr

/-- **Plain text stands among the outcomes placed so far, and what comes before it is worth
    something.** The last one stands first. -/
def BehindPlain (code : String) (os placed : List Outcome) : Prop :=
  ∃ later earlier, placed = later ++ .plain code :: earlier ∧
    ∀ o ∈ earlier, o ∈ os ∧ 0 < o.relevance

theorem behindPlain_place {os : List Outcome} (ho : o ∈ os) : ∀ {placed : List Outcome},
    BehindPlain code os placed → BehindPlain code os (h.place o placed)
  | _, ⟨[], earlier, rfl, hearlier⟩ => by
      show BehindPlain code os (h.place o (.plain code :: earlier))
      unfold place
      split
      · rename_i hrank
        refine ⟨[], h.place o earlier, rfl, fun x hx => ?_⟩
        rcases mem_place hx with rfl | hx
        · exact ⟨ho, relevance_of_rank (by simpa using hrank)⟩
        · exact hearlier x hx
      · exact ⟨[o], earlier, rfl, hearlier⟩
  | _, ⟨last :: later, earlier, rfl, hearlier⟩ => by
      have ih : BehindPlain code os (h.place o (later ++ .plain code :: earlier)) :=
        behindPlain_place ho ⟨later, earlier, rfl, hearlier⟩
      show BehindPlain code os (h.place o (last :: (later ++ .plain code :: earlier)))
      unfold place
      split
      · obtain ⟨later', earlier', heq, hearlier'⟩ := ih
        exact ⟨last :: later', earlier', by rw [heq]; rfl, hearlier'⟩
      · exact ⟨o :: last :: later, earlier, rfl, hearlier⟩

/-- **The best of some outcomes and plain text is plain text, or one that is worth something.** -/
theorem best_choose (h : Highlighter) (code : String) (os : List Outcome) :
    (h.choose code (.plain code :: os)).best = .plain code ∨
      ((h.choose code (.plain code :: os)).best ∈ os ∧
        0 < (h.choose code (.plain code :: os)).best.relevance) := by
  have hfold : ∀ (rest placed : List Outcome), (∀ o ∈ rest, o ∈ os) →
      BehindPlain code os placed →
      BehindPlain code os (rest.foldl (fun placed o => h.place o placed) placed) := by
    intro rest
    induction rest with
    | nil => exact fun placed _ hp => hp
    | cons o rest ih =>
      intro placed hmem hp
      refine ih (h.place o placed) (fun x hx => hmem x (List.mem_cons_of_mem o hx)) ?_
      exact behindPlain_place (hmem o List.mem_cons_self) hp
  have hstart : BehindPlain code os (h.place (.plain code) []) :=
    ⟨[], [], rfl, fun o ho => by cases ho⟩
  obtain ⟨later, earlier, heq, hearlier⟩ := hfold os _ (fun _ ho => ho) hstart
  have hranked : h.ranked (.plain code :: os) =
      earlier.reverse ++ .plain code :: later.reverse := by
    unfold ranked
    rw [List.foldl_cons, heq, List.reverse_append, List.reverse_cons, List.append_assoc]
    rfl
  unfold choose
  rw [hranked]
  cases hr : earlier.reverse with
  | nil => exact .inl rfl
  | cons best others =>
    have hbest : best ∈ earlier := List.mem_reverse.mp (hr ▸ List.mem_cons_self)
    exact .inr (hearlier best hbest)

/-- **What detection finds best is plain text, or the outcome of a language that is worth
    something.** -/
theorem best_detect {candidates : Option (List String)} {d : Detection}
    (hd : (h.detect run candidates code).result = .ok d) :
    d.best = .plain code ∨ ∃ name ∈ h.takingPart candidates,
      (run name).result = .ok d.best ∧ 0 < d.best.relevance := by
  rw [detect_eq] at hd
  obtain ⟨os, hos, hd⟩ := Attempt.result_bind_eq_ok hd
  cases hd
  rcases best_choose h code os with hbest | ⟨hmem, hworth⟩
  · exact .inl hbest
  · obtain ⟨name, hname, hrun⟩ := mem_tryAll hos hmem
    exact .inr ⟨name, hname, hrun, hworth⟩

/-- Detection fails as one of the languages does, other than by something forbidden. -/
theorem fails_detect {candidates : Option (List String)}
    (hd : (h.detect run candidates code).result = .error f) :
    ∃ name ∈ h.takingPart candidates, (run name).result = .error f ∧
      f.cause.isIllegal = false := by
  rw [detect_eq] at hd
  cases hos : (tryAll run (h.takingPart candidates)).result with
  | ok os =>
    rw [Attempt.result_bind_of_ok hos] at hd
    cases hd
  | error f' =>
    rw [Attempt.result_bind_of_error hos] at hd
    cases hd
    exact fails_tryAll hos

end Detection

end Highlight.Highlighter
