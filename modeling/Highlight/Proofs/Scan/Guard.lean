import Highlight.Proofs.Scan.OpenModes

/-!
# The guard of a run

Nothing about a text or a language keeps a run from standing still: what is read again, empty
matches and hooks may leave it where it is. The guard ends every run nevertheless, and it ends none
that has made headway.

* `Takes` -- how many rounds a run takes, by itself and whatever fuel it is given;
* `scan_of_takes`, `takes_scanAll` -- with as many rounds of fuel a run comes to what it comes to;
* `Trips` -- the round in which the guard ends a run;
* `fault_of_trips`, `tripped_or_passed_on` -- a run that the guard ends, and only such a run, lacks
  headway, unless a nested run does;
* `Words` -- the rounds of the search for words;
* `runs_are_bounded` -- all of it.
-/

namespace Highlight.Scan

open Highlight.Arena (compileLanguage)
open Highlight.Grammar (HookNote Language)
open Highlight.Highlighter (passes exists_of_passes)
open Highlight.Regex (Span)

variable {s : Scene} {continuation : Option (List Nat)} {n n' k k' i i' : Nat} {r r' : Run}
  {f : Fault}

/-! ## 1. Rounds -/

/-- The greatest number of rounds after which a run may go on. -/
def roundLimit (s : Scene) : Nat :=
  max s.options.loopIterationFloor
    (boundedMul (s.text.byteOffset s.text.size) s.options.loopIterationRatio)

theorem maxSteps_eq (s : Scene) : maxSteps s = roundLimit s + 1 := rfl

/-- **The guard lets no run go on after the limit.** -/
theorem le_roundLimit (h : Reached s continuation n r) : n ≤ roundLimit s := by
  cases h with
  | start => exact Nat.zero_le _
  | next _ hturn =>
    rename_i n _ _ _
    refine Nat.le_of_not_lt fun hlt => ?_
    exact not_next_of_maxSteps (show maxSteps s ≤ n + 1 by rw [maxSteps_eq]; omega) hturn

/-- **A run takes `k` rounds**: it goes on after each of them but the last. -/
def Takes (s : Scene) (continuation : Option (List Nat)) (k : Nat) : Prop :=
  ∃ n r, k = n + 1 ∧ Reached s continuation n r ∧ ∀ notes r', turn s (n + 1) r ≠ .next notes r'

theorem takes_unique (h : Takes s continuation k) (h' : Takes s continuation k') : k = k' := by
  have hle : ∀ {k k'}, Takes s continuation k → Takes s continuation k' → k ≤ k' := by
    rintro k k' ⟨n, r, rfl, hr, _⟩ ⟨n', r', rfl, hr', hlast'⟩
    exact Nat.succ_le_succ (le_of_over hr hr' hlast')
  exact Nat.le_antisymm (hle h h') (hle h' h)

/-- The rounds that a run has taken use up as much fuel. -/
theorem scan_of_reached (h : Reached s continuation n r) : ∃ notes, ∀ fuel,
    scan s (n + fuel) 0 [] (initial s.arena continuation) = scan s fuel n notes r := by
  induction h with
  | start => exact ⟨[], fun fuel => by rw [Nat.zero_add]⟩
  | @next n r0 r1 more _ hturn ih =>
    obtain ⟨notes, hscan⟩ := ih
    refine ⟨more.reverse ++ notes, fun fuel => ?_⟩
    rw [Nat.add_right_comm]
    refine (hscan (fuel + 1)).trans ?_
    rw [scan, hturn]

/-- **A run needs no more fuel than the rounds that it takes.** -/
theorem scan_of_takes (h : Takes s continuation k) {fuel : Nat} (hfuel : k ≤ fuel) :
    scan s fuel 0 [] (initial s.arena continuation) =
      scan s k 0 [] (initial s.arena continuation) := by
  obtain ⟨n, r, rfl, hr, hlast⟩ := h
  obtain ⟨notes, hscan⟩ := scan_of_reached hr
  obtain ⟨more, rfl⟩ := Nat.exists_eq_add_of_le hfuel
  rw [Nat.add_assoc, hscan, hscan, Nat.add_comm 1 more, scan, scan]
  cases hturn : turn s (n + 1) r with
  | next notes' r' => exact absurd hturn (hlast notes' r')
  | last _ _ => rfl
  | broken _ _ => rfl

/-- Every run takes some number of rounds, at most one more than the limit. -/
theorem exists_takes (s : Scene) (continuation : Option (List Nat)) :
    ∃ k, Takes s continuation k ∧ k ≤ roundLimit s + 1 := by
  -- A run that went on after every round would pass the limit.
  by_contra hnone
  have hall : ∀ n, ∃ r, Reached s continuation n r := by
    intro n
    induction n with
    | zero => exact ⟨_, .start⟩
    | succ n ih =>
      obtain ⟨r, hr⟩ := ih
      have hle := le_roundLimit hr
      by_contra hstuck
      refine hnone ⟨n + 1, ⟨n, r, rfl, hr, fun notes r' hturn => ?_⟩, Nat.succ_le_succ hle⟩
      exact hstuck ⟨r', .next hr hturn⟩
  obtain ⟨r, hr⟩ := hall (roundLimit s + 1)
  exact absurd (le_roundLimit hr) (Nat.not_succ_le_self _)

/-! ## 2. Want of headway -/

/-- **The guard trips in round `k`, on a match that begins at index `i`**: more rounds have been taken
    than may always be taken, and more than the way to the match allows. -/
def Trips (s : Scene) (continuation : Option (List Nat)) (k i : Nat) : Prop :=
  ∃ n r m first, k = n + 1 ∧ Reached s continuation n r ∧ lookUp s r = .ok (some m, first) ∧
    m.span.start = i ∧ s.options.loopIterationFloor < k ∧
    min (s.text.byteOffset i * s.options.loopIterationRatio) Text.maxCount < k

theorem lacksHeadway_iff : lacksHeadway s k i = true ↔ s.options.loopIterationFloor < k ∧
    min (s.text.byteOffset i * s.options.loopIterationRatio) Text.maxCount < k := by
  unfold lacksHeadway boundedMul
  rw [Bool.and_eq_true, decide_eq_true_eq, decide_eq_true_eq]

theorem trips_of_losesHeadway (h : LosesHeadway s continuation f) :
    ∃ k i, Trips s continuation k i ∧ f = s.fault (.infiniteLoop k) i := by
  cases h with
  | stopped hr hl hlacks =>
    obtain ⟨hfloor, hway⟩ := lacksHeadway_iff.mp hlacks
    exact ⟨_, _, ⟨_, _, _, _, rfl, hr, hl, rfl, hfloor, hway⟩, rfl⟩

/-- The guard ends the round in which it trips. -/
theorem turn_of_trips (h : Trips s continuation k i) : ∃ n r, k = n + 1 ∧
    Reached s continuation n r ∧ turn s k r = .broken [] (s.fault (.infiniteLoop k) i) := by
  obtain ⟨n, r, m, first, rfl, hr, hl, rfl, hfloor, hway⟩ := h
  exact ⟨n, r, rfl, hr, turn_of_lacksHeadway hl (lacksHeadway_iff.mpr ⟨hfloor, hway⟩)⟩

theorem takes_of_trips (h : Trips s continuation k i) : Takes s continuation k := by
  obtain ⟨n, r, rfl, hr, hturn⟩ := turn_of_trips h
  exact ⟨n, r, rfl, hr, fun notes r' hnext => by rw [hturn] at hnext; cases hnext⟩

/-- **A run in which the guard trips is ended by it.** -/
theorem fault_of_trips (h : Trips s continuation k i) :
    (scanAll s continuation).fault = some (s.fault (.infiniteLoop k) i) := by
  have htakes := takes_of_trips h
  obtain ⟨n, r, rfl, hr, hturn⟩ := turn_of_trips h
  obtain ⟨notes, hscan⟩ := scan_of_reached hr
  have hle : n + 1 ≤ maxSteps s := by
    rw [maxSteps_eq]
    exact Nat.succ_le_succ (le_roundLimit hr)
  rw [scanAll, scan_of_takes htakes hle, hscan, scan, hturn]
  rfl

/-- A step does not end for want of headway, unless a nested run has. -/
theorem delegated_of_stepFails (h : StepFails s f) (hloop : f.cause.isInfiniteLoop = true) :
    ∃ id sub text, (s.arena.mode id).subLanguage = some sub ∧ s.delegate.Fails sub text f := by
  cases h with
  | panicked _ _ _ => cases hloop
  | delegated hsub hfails => exact ⟨_, _, _, hsub, hfails⟩
  | illegal _ _ _ _ => cases hloop
  | zeroWidth _ _ => cases hloop

/-- **A run ends for want of headway only where the guard trips, or where a nested run ends so.** -/
theorem tripped_or_passed_on (h : (scanAll s continuation).fault = some f)
    (hloop : f.cause.isInfiniteLoop = true) :
    (∃ k i, Trips s continuation k i ∧ f = s.fault (.infiniteLoop k) i) ∨
    ∃ id sub text, (s.arena.mode id).subLanguage = some sub ∧ s.delegate.Fails sub text f := by
  have hends := ends_scanAll s continuation
  generalize scanAll s continuation = scanned at hends h
  cases hends with
  | broken notes hr hturn =>
    cases h
    rcases turn_broken hturn with ⟨cause, hl, rfl⟩ | ⟨m, first, hl, hlacks, rfl⟩ |
      ⟨m, first, _, hstep⟩
    · obtain ⟨id, _, hmerge⟩ := Arena.next_error hl
      obtain ⟨pattern, message, rfl⟩ := Arena.RuleSet.mergedFrom_error hmerge
      cases hloop
    · exact .inl (trips_of_losesHeadway (.stopped hr hl hlacks))
    · exact .inr (delegated_of_stepFails ((moves_step s m _).2 f (by rw [hstep])) hloop)
  | completed notes hr hturn =>
    rename_i n r0 r1 more
    unfold complete at h
    simp only at h
    split at h
    · cases h
    · rename_i more2 f2 hflushed
      cases h
      refine .inr (delegated_of_stepFails ?_ hloop)
      exact (frames_flush s (r1.hold (s.text.slice r1.index s.text.size))).2 f (by rw [hflushed])

/-! ## 3. Words -/

/-- **The search for words from an index on**, with the number of its rounds and the words it comes
    to: it is over when nothing is found; an empty match is passed by one character. -/
inductive Words (re : Regex) (text : Text) : Nat → Nat → List Span → Prop
  | over {i : Nat} : re.search text i = none → Words re text 1 i []
  | skipped {n i : Nat} {m : Regex.Found} {spans : List Span} : re.search text i = some m →
      m.span.start = m.span.stop → Words re text n (m.span.stop + 1) spans →
      Words re text (n + 1) i spans
  | found {n i : Nat} {m : Regex.Found} {spans : List Span} : re.search text i = some m →
      m.span.start ≠ m.span.stop → Words re text n m.span.stop spans →
      Words re text (n + 1) i (m.span :: spans)

theorem words_identifiersFrom (re : Regex) (text : Text) (fuel i : Nat)
    (h : text.size + 1 ≤ fuel + i) :
    ∃ n, n ≤ fuel + 1 ∧ Words re text n i (identifiersFrom re text fuel i) := by
  induction fuel generalizing i with
  | zero =>
    refine ⟨1, Nat.le_refl 1, .over ?_⟩
    cases hm : re.search text i with
    | none => rfl
    | some m =>
      have := Regex.span_search hm
      omega
  | succ fuel ih =>
    unfold identifiersFrom
    split
    · rename_i hm
      exact ⟨1, by omega, .over hm⟩
    · rename_i m hm
      obtain ⟨hstart, hstop, hsize⟩ := Regex.span_search hm
      split
      · rename_i hempty
        obtain ⟨n, hn, hwords⟩ := ih (m.span.stop + 1) (by omega)
        exact ⟨n + 1, by omega, .skipped hm (by simpa using hempty) hwords⟩
      · rename_i hempty
        have hne : m.span.start ≠ m.span.stop := by simpa using hempty
        obtain ⟨n, hn, hwords⟩ := ih m.span.stop (by omega)
        exact ⟨n + 1, by omega, .found hm hne hwords⟩

/-- **The search for the words of a text comes to an end.** -/
theorem words_identifiers (re : Regex) (text : Text) :
    ∃ n, n ≤ text.size + 2 ∧ Words re text n 0 (identifiers re text) :=
  words_identifiersFrom re text (text.size + 1) 0 (Nat.le_refl _)

/-! ## 4. Runs -/

/-- **Every run is bounded.** It takes some number of rounds, at most one more than the limit, and
    comes to the same with any greater number of rounds; no count of rounds leaves its range where the
    limit does not reach the end of it; the search for the words of a text ends. A run is ended for
    want of headway in the first round in which the guard trips, and for no other reason, unless a
    nested run has ended so. -/
theorem runs_are_bounded (s : Scene) (continuation : Option (List Nat)) :
    (∃! k, Takes s continuation k) ∧
    (∀ k, Takes s continuation k → k ≤ roundLimit s + 1 ∧
      (roundLimit s < Text.maxCount → k ≤ Text.maxCount) ∧
      ∀ fuel, k ≤ fuel →
        scan s fuel 0 [] (initial s.arena continuation) = scanAll s continuation) ∧
    (∀ re text, ∃ n, n ≤ text.size + 2 ∧ Words re text n 0 (identifiers re text)) ∧
    (∀ k i, Trips s continuation k i → Takes s continuation k ∧
      (scanAll s continuation).fault = some (s.fault (.infiniteLoop k) i)) ∧
    ∀ f, (scanAll s continuation).fault = some f → f.cause.isInfiniteLoop = true →
      (∃ k i, Trips s continuation k i ∧ f = s.fault (.infiniteLoop k) i) ∨
      ∃ id sub text, (s.arena.mode id).subLanguage = some sub ∧ s.delegate.Fails sub text f := by
  obtain ⟨k, htakes, hle⟩ := exists_takes s continuation
  refine ⟨⟨k, htakes, fun k' h' => takes_unique h' htakes⟩, fun k' h' => ?_, words_identifiers,
    fun k' i h' => ⟨takes_of_trips h', fault_of_trips h'⟩,
    fun f hf hloop => tripped_or_passed_on hf hloop⟩
  cases takes_unique h' htakes
  refine ⟨hle, fun hlt => Nat.le_trans hle hlt, fun fuel hfuel => ?_⟩
  rw [scanAll, maxSteps_eq, scan_of_takes htakes hfuel, scan_of_takes htakes hle]

/-- A language of which a run makes no headway: an `a` is read again, first where its mode begins and
    then where it ends. -/
def restlessLanguage : Language where
  mode := {
    contains := some [.mode ⟨[("again", 0)], {
      beginPattern := some (.single "a")
      endPattern := some (.single "a")
      returnBegin := some true
      returnEnd := some true }⟩] }

/-- A run over the text `a`, which may take three rounds before its headway is looked at. -/
def restlessScene (arena : Arena) : Scene where
  arena := arena
  options := { loopIterationFloor := 3 }
  text := Text.ofString "a"
  ignoreIllegals := false
  delegate := ⟨fun _ _ _ => none, fun _ _ => .fail (.unplaced .endlessDelegation)⟩

/-- The guard trips in the fourth round of a run without headway, which ends the run. -/
theorem restless_run_is_bounded : ∃ arena, compileLanguage "restless" restlessLanguage = .ok arena ∧
    roundLimit (restlessScene arena) = 3 ∧ Takes (restlessScene arena) none 4 ∧
    Trips (restlessScene arena) none 4 0 := by
  have hcheck : passes (compileLanguage "restless" restlessLanguage) (fun arena =>
      (arena.modes.all fun m => m.subLanguage.isNone) &&
        (scanAll (restlessScene arena) none).fault ==
          some ((restlessScene arena).fault (.infiniteLoop 4) 0)) = true := by decide +kernel
  obtain ⟨arena, hc, hcheck⟩ := exists_of_passes hcheck
  simp only [Bool.and_eq_true, beq_iff_eq, Array.all_eq_true] at hcheck
  obtain ⟨hplain, hfault⟩ := hcheck
  have hbounded := runs_are_bounded (restlessScene arena) none
  have htrips : Trips (restlessScene arena) none 4 0 := by
    rcases hbounded.2.2.2.2 _ hfault rfl with ⟨k, i, htrips, heq⟩ | ⟨id, sub, _, hsub, _⟩
    · have hk : k = 4 := by
        have := congrArg Fault.cause heq
        cases this
        rfl
      have hi : 0 = i := by
        obtain ⟨_, _, _, _, _, _, hl, hstart, _⟩ := htrips
        have hfinds := Arena.finds_next hl
        have hsize : i ≤ 1 := hstart ▸ Nat.le_trans hfinds.ordered hfinds.stop_le
        rcases Nat.le_one_iff_eq_zero_or_eq_one.mp hsize with rfl | rfl
        · rfl
        · have hoffset : 0 = 1 := congrArg (fun f => f.position.offset) heq
          cases hoffset
      rw [hk, ← hi] at htrips
      exact htrips
    · exfalso
      have hnone : (arena.mode id).subLanguage = none := by
        unfold Arena.mode
        rw [Array.getD_eq_getD_getElem?]
        cases hm : arena.modes[id]? with
        | none => rfl
        | some m =>
          obtain ⟨hlt, rfl⟩ := Array.getElem?_eq_some_iff.mp hm
          exact Option.isNone_iff_eq_none.mp (hplain id hlt)
      cases hnone.symm.trans hsub
  exact ⟨arena, hc, rfl, (hbounded.2.2.2.1 4 0 htrips).1, htrips⟩

end Highlight.Scan
