import Highlight.Proofs.Arena.Trimmed
import Highlight.Proofs.Scan.Alike
import Highlight.Proofs.Scan.Rounds
import Highlight.Proofs.Text.Slices

/-!
# Beginnings that never count

A hook can turn the beginning of a mode down whenever it matches. A run passes over such a match and
takes up behind its rule at the same place; a run in the same language without the rule does not
stop there at all. The two come to the same, unless an end reads nothing where the beginning
matches: then the first run takes the end for that of a mode that has just begun.

* `Rejected` -- a mode whose beginning never counts;
* `EndsRead`, `MayLack` -- where a rule can be left out;
* `Trims` -- a language, and the same one without some beginnings that never count;
* `Run.waiting`, `waiting_turnDown` -- the matches that a run is going to meet;
* `Trails` -- how far a run and one without the rules may be apart;
* `trails_rejected`, `agrees_step` -- one round;
* `same_goOn`, `same_scanAll` -- whole runs.
-/

namespace Highlight.Scan

open Highlight.Arena (NeverBegins RuleMatch RuleKind Rule RuleSet SameKind SameRule SameMatch
  Thinned hits_eq_cons hits_size hits_of_size_lt rule_lt_of_hits thinned_hits own_eq_some)
open Highlight.Grammar (Hook HookNote)
open Attempt

/-! ## 1. Rules that can be left out -/

/-- **The beginning of the mode never counts.** -/
def Rejected (arena : Arena) (id : Nat) : Prop := NeverBegins (arena.mode id).onBegin

/-- No end among the rules reads nothing at an index. -/
def EndsRead (rs : RuleSet) (text : Text) (i : Nat) : Prop :=
  ∀ r ∈ rs.rules, r.kind = .ends → ∀ k m, r.own rs.folded text i k = some m → m.isEmpty = false

/-- **A rule that can be left out**: the beginning that it finds never counts, and no end reads
    nothing where it matches. -/
def MayLack (arena : Arena) (rs : RuleSet) (r : Rule) : Prop :=
  ∃ id, r.kind = .begins id ∧ Rejected arena id ∧
    ∀ text i k, (r.own rs.folded text i k).isSome = true → EndsRead rs text i

/-- **A language, and the same one without some beginnings that never count**, up to the numbers of
    modes. In both, merged patterns find what their rules find by themselves. -/
structure Trims (R : Nat → Nat → Prop) (arena arena' : Arena) : Prop where
  same : SameArena R arena arena'
  bounded : ∀ {i i' : Nat}, R i i' → i < arena.modes.size ∧ i' < arena'.modes.size
  folded : ∀ {i i' : Nat}, R i i' →
    (arena'.mode i').rules.folded = (arena.mode i).rules.folded
  rules : ∀ {i i' : Nat}, R i i' →
    Thinned (SameRule R) (MayLack arena (arena.mode i).rules) (arena.mode i).rules.rules
      (arena'.mode i').rules.rules
  apart : ∀ {i i' : Nat}, R i i' → ∀ text,
    (arena.mode i).rules.ReadsApart text ∧ (arena'.mode i').rules.ReadsApart text

variable {R : Nat → Nat → Prop} {T : String → List Nat → List Nat → Prop} {s s' : Scene}
  {m m' : RuleMatch} {ms ms' : List RuleMatch} {r r' : Run} {k k' : Marks}
  {steps steps' first : Nat}
  {notes more : List HookNote} {f : Fault}

/-- A match that only a language with the rules finds. -/
def Skipped (s : Scene) (rs : RuleSet) (m : RuleMatch) : Prop :=
  ∃ id, m.kind = .begins id ∧ Rejected s.arena id ∧ EndsRead rs s.text m.span.start

theorem skipped_of_mayLack {rs : RuleSet} {r : Rule} {i k : Nat} (h : MayLack s.arena rs r)
    (hown : r.own rs.folded s.text i k = some m) : Skipped s rs m := by
  obtain ⟨id, hkind, hrejected, hends⟩ := h
  obtain ⟨hm, _, hstart, _⟩ := own_eq_some hown
  refine ⟨id, hm.trans hkind, hrejected, ?_⟩
  rw [hstart]
  exact hends s.text i k (by rw [hown]; rfl)

/-! ## 2. What a run is going to meet -/

/-- The matches that a run is going to meet if it turns each of them down. -/
def Run.waiting (s : Scene) (r : Run) : List RuleMatch :=
  let rules := (s.top r).rules
  let first := if r.resumes then r.firstRule else 0
  rules.hits s.text r.index (if first < rules.size then first else 0)

/-- What a run finds is the first match that it is going to meet. -/
theorem lookUp_waiting (h : (s.top r).rules.ReadsApart s.text) : ∃ first, lookUp s r =
    .ok ((s.top r).rules.advance first (r.waiting s).head?) :=
  ⟨_, Arena.next_of_readsApart h r.index _⟩

theorem waiting_of_not_resumes (h : r.resumes = false) :
    r.waiting s = (s.top r).rules.hits s.text r.index 0 := by
  unfold Run.waiting
  simp [h]

theorem waiting_of_size_lt (h : s.text.size < r.index) : r.waiting s = [] :=
  hits_of_size_lt _ _ h

/-- A run that turns a match down stands where the match begins, or behind that, and has held back
    what is between. -/
theorem turnDown_eq (s : Scene) (m : RuleMatch) (r : Run) : ∃ i resumes, m.span.start ≤ i ∧
    turnDown s m r = { r with
      buffer := r.buffer ++ s.text.slice m.span.start i
      index := i
      resumes } := by
  unfold turnDown
  split
  · exact ⟨m.span.start + 1, r.resumes, Nat.le_succ _, rfl⟩
  · exact ⟨m.span.start, true, Nat.le_refl _, by simp⟩

/-- **After a match has been turned down, a run is going to meet those behind it.** -/
theorem waiting_turnDown (r1 : Run) (hw : r.waiting s = m :: ms) (hframes : r1.frames = r.frames)
    (hfirst : r1.firstRule = if m.rule + 1 == (s.top r).rules.size then 0 else m.rule + 1)
    (hresumes : r1.resumes = false) : (turnDown s m r1).waiting s = ms := by
  have hlt := rule_lt_of_hits hw
  obtain ⟨_, _, _, rfl⟩ := hits_eq_cons hw
  have htop : s.top r1 = s.top r := by
    unfold Scene.top
    rw [hframes]
  unfold turnDown
  by_cases hlast : m.rule + 1 = (s.top r).rules.size
  · have hzero : r1.firstRule = 0 := by simpa [hlast] using hfirst
    rw [if_pos (by simpa using hzero), waiting_of_not_resumes (by exact hresumes), hlast, hits_size,
      ← htop]
    rfl
  · have hnext : r1.firstRule = m.rule + 1 := by simpa [hlast] using hfirst
    have hwaiting : Run.waiting s { r1 with resumes := true, index := m.span.start } =
        (s.top r1).rules.hits s.text m.span.start
          (if r1.firstRule < (s.top r1).rules.size then r1.firstRule else 0) := rfl
    rw [if_neg (by simp [hnext]), hwaiting, htop, hnext, if_pos (by omega)]

/-! ## 3. Two runs -/

/-- Whether a mode was last begun, or attempted, at an index. -/
def begunAt (last : Option (RuleKind × Nat)) (i : Nat) : Bool :=
  match last with
  | some (.begins _, j) => j == i
  | _ => false

theorem isEmptyMode_eq (m : RuleMatch) (last : Option (RuleKind × Nat)) :
    isEmptyMode m last = (m.kind == .ends && m.isEmpty && begunAt last m.span.start) := by
  unfold isEmptyMode begunAt
  rcases last with _ | ⟨_ | _ | _, i⟩
  · simp
  · simp [Bool.and_right_comm]
  · simp
  · simp

/-- **A run, and one without the rules**: but for the text that they have passed since they were
    last at one place, they are alike; the first is going to meet what the second is, and the rules
    that are left out besides. They have last begun a mode at the same place, or no end reads nothing
    there. -/
structure Trails (R : Nat → Nat → Prop) (T : String → List Nat → List Nat → Prop) (s s' : Scene)
    (r r' : Run) : Prop where
  alike : ∃ buffer i k k', i ≤ r.index ∧ i ≤ r'.index ∧
    r.buffer = buffer ++ s.text.slice i r.index ∧ r'.buffer = buffer ++ s.text.slice i r'.index ∧
    Run.Alike R T k k' { r with buffer } { r' with buffer }
  waiting : Thinned (SameMatch R) (Skipped s (s.top r).rules) (r.waiting s) (r'.waiting s')
  last : ∀ i, r.index ≤ i →
    begunAt r.last i = begunAt r'.last i ∨ EndsRead (s.top r).rules s.text i
  behind : ∀ kind i, r'.last = some (kind, i) → i ≤ r.index

namespace Trails

theorem frames (h : Trails R T s s' r r') : List.Forall₂ (SameFrame R) r.frames r'.frames := by
  obtain ⟨_, _, _, _, _, _, _, _, halike⟩ := h.alike
  exact halike.frames

theorem events (h : Trails R T s s' r r') : r'.events = r.events := by
  obtain ⟨_, _, _, _, _, _, _, _, halike⟩ := h.alike
  exact halike.events

/-- The text up to a place held back, the runs are alike. -/
theorem held (h : Trails R T s s' r r') (htext : s'.text = s.text) {i : Nat} (hi : r.index ≤ i)
    (hi' : r'.index ≤ i) : (r.hold (s.text.slice r.index i)).Alike R T r.marks r'.marks
      (r'.hold (s'.text.slice r'.index i)) := by
  obtain ⟨buffer, j, k, k', hj, hj', hbuffer, hbuffer', halike⟩ := h.alike
  refine { halike with buffer := ?_, marks := rfl, marks' := rfl }
  unfold Run.hold
  rw [htext, hbuffer, hbuffer', String.append_assoc, String.append_assoc, Text.slice_append _ hj hi,
    Text.slice_append _ hj' hi']

/-- The rest of the text held back, the runs are alike. -/
theorem heldToEnd (h : Trails R T s s' r r') (htext : s'.text = s.text) :
    (r.hold (s.text.slice r.index s.text.size)).Alike R T r.marks r'.marks
      (r'.hold (s'.text.slice r'.index s'.text.size)) := by
  have hle : s.text.size ≤ max s.text.size (max r.index r'.index) := Nat.le_max_left _ _
  have hheld := h.held htext (i := max s.text.size (max r.index r'.index)) (by omega) (by omega)
  rw [htext] at hheld ⊢
  rwa [Text.slice_to_size _ _ hle, Text.slice_to_size _ _ hle] at hheld

end Trails

theorem rules_same (hs : SameScene R T s s') (ht : Trims R s.arena s'.arena)
    (h : List.Forall₂ (SameFrame R) r.frames r'.frames) :
    Thinned (SameMatch R) (Skipped s (s.top r).rules)
      ((s.top r).rules.hits s.text r.index 0) ((s'.top r').rules.hits s'.text r.index 0) := by
  have hid := hs.topId h
  rw [hs.text]
  exact thinned_hits (ht.folded hid) (ht.rules hid)
    (fun _ _ _ _ hr hown => skipped_of_mayLack hr hown) _

/-- Two runs that are alike and at one place, neither of which takes up behind a rule. -/
theorem trails_of_alike (k k' : Marks) (hs : SameScene R T s s') (ht : Trims R s.arena s'.arena)
    (h : r.Alike R T k k' r') (hindex : r'.index = r.index) (hk : k.resumes = false)
    (hk' : k'.resumes = false)
    (hlast : ∀ i, r.index ≤ i → begunAt k.last i = begunAt k'.last i)
    (hbehind : ∀ kind i, k'.last = some (kind, i) → i ≤ r.index) : Trails R T s s' r r' := by
  obtain rfl := h.marks
  obtain rfl := h.marks'
  refine ⟨⟨r.buffer, r.index, r.marks, r'.marks, Nat.le_refl _, Nat.le_of_eq hindex.symm, by simp,
    by simp [hindex, h.buffer], { h with buffer := rfl, marks := rfl, marks' := rfl }⟩, ?_,
    fun i hi => .inl (hlast i hi), hbehind⟩
  rw [waiting_of_not_resumes hk, waiting_of_not_resumes hk', hindex]
  exact rules_same hs ht h.frames

/-! ## 4. One round -/

/-- The state in which a match has been found, with the text before it held back. -/
def Run.found (s : Scene) (m : RuleMatch) (r : Run) : Run :=
  (r.atRule (if m.rule + 1 == (s.top r).rules.size then 0 else m.rule + 1)).meet s m

/-- A beginning that never counts is turned down, whatever else can be said of it. -/
theorem act_rejected {id : Nat} (hkind : m.kind = .begins id) (h : Rejected s.arena id) :
    act s m r = pure (turnDown s m r) := by
  obtain ⟨hook, hhook, hrejects⟩ := h
  obtain ⟨hverdict, hnotes⟩ := hrejects ⟨s.text, m.span.start, m.groups⟩ .empty
  have hasked : askHook? s (some hook) m .empty =
      pure (false, (hook.call ⟨s.text, m.span.start, m.groups⟩ .empty).data) := by
    simp only [askHook?, askHook, hverdict, hnotes]
    rfl
  unfold act
  rw [hkind]
  simp only [beginStep, hhook, hasked]
  split
  · rfl
  · rfl

theorem step_rejected {id : Nat} (hkind : m.kind = .begins id) (h : Rejected s.arena id) :
    step s m r = pure (turnDown s m (r.meet s m)) := by
  rw [step_of_not_empty, act_rejected hkind h]
  rw [isEmptyMode_eq, hkind]
  rfl

/-- **A run that passes over a beginning that never counts trails as before.** -/
theorem trails_rejected (h : Trails R T s s' r r') (hw : r.waiting s = m :: ms)
    (hms : Thinned (SameMatch R) (Skipped s (s.top r).rules) ms (r'.waiting s'))
    (hskip : Skipped s (s.top r).rules m) :
    Trails R T s s' (turnDown s m (r.found s m)) r' := by
  obtain ⟨id, hkind, _, hends⟩ := hskip
  obtain ⟨hle, _, _, _⟩ := hits_eq_cons hw
  obtain ⟨buffer, i, k, k', hi, hi', hbuffer, hbuffer', halike⟩ := h.alike
  have hwaiting := waiting_turnDown (r.found s m) hw rfl rfl rfl
  obtain ⟨j, resumes, hj, hdown⟩ := turnDown_eq s m (r.found s m)
  rw [hdown] at hwaiting ⊢
  refine ⟨⟨buffer, i, _, k', Nat.le_trans hi (Nat.le_trans hle hj), hi', ?_, hbuffer',
    { halike with marks := rfl }⟩, ?_, ?_, ?_⟩
  · show (r.buffer ++ s.text.slice r.index m.span.start) ++ s.text.slice m.span.start j =
      buffer ++ s.text.slice i j
    rw [String.append_assoc, Text.slice_append _ hle hj, hbuffer, String.append_assoc,
      Text.slice_append _ hi (Nat.le_trans hle hj)]
  · rw [hwaiting]
    exact hms
  · -- Only where it matches has the beginning left a trace, and there no end reads nothing.
    intro p hp
    show begunAt (some (m.kind, m.span.start)) p = _ ∨ EndsRead (s.top r).rules s.text p
    by_cases heq : m.span.start = p
    · subst heq
      exact .inr hends
    · left
      have hnone : begunAt r'.last p = false := by
        unfold begunAt
        split
        · rename_i q hlast
          have hq := h.behind _ _ hlast
          have hp' : j ≤ p := hp
          exact beq_false_of_ne (by omega)
        · rfl
      rw [hnone, hkind]
      exact beq_false_of_ne heq
  · intro kind p hp
    have hq := h.behind kind p hp
    show p ≤ j
    omega

/-- The runs are alike where they have found the same match. -/
theorem Trails.found (h : Trails R T s s' r r') (htext : s'.text = s.text)
    (hw : r.waiting s = m :: ms) (hw' : r'.waiting s' = m' :: ms') (hm : SameMatch R m m') :
    (r.found s m).Alike R T (r.found s m).marks (r'.found s' m').marks (r'.found s' m') := by
  obtain ⟨hle, _, _, _⟩ := hits_eq_cons hw
  obtain ⟨hle', _, _, _⟩ := hits_eq_cons hw'
  rw [hm.span] at hle'
  have hheld := h.held htext hle hle'
  refine { hheld with buffer := ?_, marks := rfl, marks' := rfl }
  show r'.buffer ++ s'.text.slice r'.index m'.span.start = _
  rw [hm.span]
  exact hheld.buffer

/-- **Two runs trail again after they have met a match that both find.** -/
theorem trails_followed (hs : SameScene R T s s') (ht : Trims R s.arena s'.arena)
    (h : Trails R T s s' r r') (hw : r.waiting s = m :: ms) (hw' : r'.waiting s' = m' :: ms')
    (hm : SameMatch R m m') (hms : Thinned (SameMatch R) (Skipped s (s.top r).rules) ms ms')
    {r1 r1' : Run} (hfollowed : Followed R T s s' m m' (r.found s m) (r'.found s' m') r1 r1') :
    Trails R T s s' r1 r1' := by
  have hbegun : ∀ i, begunAt (some (m.kind, m.span.start)) i =
      begunAt (some (m'.kind, m'.span.start)) i := by
    intro i
    have hkind := hm.kind
    rw [hm.span]
    generalize m.kind = kind at hkind ⊢
    generalize m'.kind = kind' at hkind ⊢
    cases hkind <;> rfl
  cases hfollowed with
  | on halike hle hindex =>
    refine trails_of_alike _ _ hs ht halike hindex rfl rfl (fun i _ => hbegun i) fun kind i hi => ?_
    cases hi
    rw [hm.span]
    exact hle
  | down =>
    have hwaiting := waiting_turnDown (r.found s m) hw rfl rfl rfl
    have hwaiting' := waiting_turnDown (r'.found s' m') hw' rfl rfl rfl
    obtain ⟨j, resumes, hj, hdown⟩ := turnDown_eq s m (r.found s m)
    obtain ⟨j', resumes', hj', hdown'⟩ := turnDown_eq s' m' (r'.found s' m')
    rw [hdown] at hwaiting ⊢
    rw [hdown'] at hwaiting' ⊢
    have hfound := h.found hs.text hw hw' hm
    rw [hm.span] at hj' hwaiting' ⊢
    refine ⟨⟨(r.found s m).buffer, m.span.start, _, _, hj, hj', rfl, ?_,
      { hfound with buffer := rfl, marks := rfl, marks' := rfl }⟩, ?_, ?_, ?_⟩
    · show (r'.found s' m').buffer ++ _ = _
      rw [hfound.buffer, hs.text]
    · rw [hwaiting, hwaiting']
      exact hms
    · exact fun i _ => .inl (hbegun i)
    · intro kind i hi
      cases hi
      rw [hm.span]
      exact hj

theorem begunAt_of_ne {last : Option (RuleKind × Nat)} {i j : Nat} (h : begunAt last i = true)
    (hne : i ≠ j) : begunAt last j = false := by
  unfold begunAt at h ⊢
  split
  · rename_i p
    have hp : p = i := by simpa using h
    rw [hp]
    exact beq_false_of_ne hne
  · rfl

/-- **A match is an empty end right where a mode has begun in both runs, or in neither.** -/
theorem isEmptyMode_same (h : Trails R T s s' r r') (hw : r.waiting s = m :: ms)
    (hm : SameMatch R m m') : isEmptyMode m' r'.last = isEmptyMode m r.last := by
  obtain ⟨hle, _, ⟨rule, hrule, hown⟩, _⟩ := hits_eq_cons hw
  have hends : (m'.kind == .ends) = (m.kind == .ends) := by
    have hkind := hm.kind
    generalize m.kind = kind at hkind ⊢
    generalize m'.kind = kind' at hkind ⊢
    cases hkind <;> rfl
  have hempty : m'.isEmpty = m.isEmpty := by
    unfold RuleMatch.isEmpty
    rw [hm.span]
  rw [isEmptyMode_eq, isEmptyMode_eq, hends, hempty, hm.span]
  rcases h.last m.span.start hle with hbegun | hread
  · rw [hbegun]
  · by_cases hkind : m.kind = .ends
    · have hnot : m.isEmpty = false :=
        hread rule (List.mem_of_getElem? hrule) ((own_eq_some hown).1.symm.trans hkind) _ m hown
      rw [hnot, Bool.and_false, Bool.false_and, Bool.false_and]
    · rw [beq_false_of_ne hkind, Bool.false_and, Bool.false_and, Bool.false_and]

/-- **Runs that trail do the same with a match that both find.** -/
theorem agrees_step (hs : SameScene R T s s') (ht : Trims R s.arena s'.arena)
    (h : Trails R T s s' r r') (hw : r.waiting s = m :: ms) (hw' : r'.waiting s' = m' :: ms')
    (hm : SameMatch R m m') (hms : Thinned (SameMatch R) (Skipped s (s.top r).rules) ms ms')
    (hordered : Ordered m) :
    Agrees (Trails R T s s')
      (step s m (r.atRule (if m.rule + 1 == (s.top r).rules.size then 0 else m.rule + 1)))
      (step s' m'
        (r'.atRule (if m'.rule + 1 == (s'.top r').rules.size then 0 else m'.rule + 1))) := by
  have hsame := isEmptyMode_same h hw hm
  have hfound := h.found hs.text hw hw' hm
  cases hempty : isEmptyMode m r.last with
  | false =>
    rw [hempty] at hsame
    rw [step_of_not_empty (by exact hempty), step_of_not_empty (by exact hsame)]
    exact agrees_mono (agrees_act hs hm hordered hfound) fun _ _ hfollowed =>
      trails_followed hs ht h hw hw' hm hms hfollowed
  | true =>
    rw [hempty] at hsame
    rw [step_of_empty (by exact hempty), step_of_empty (by exact hsame), hs.options]
    split
    · obtain ⟨hle, _, _, _⟩ := hits_eq_cons hw
      have hbegun : ∀ {last : Option (RuleKind × Nat)} {m : RuleMatch},
          isEmptyMode m last = true → begunAt last m.span.start = true := by
        intro last m hm
        rw [isEmptyMode_eq, Bool.and_eq_true] at hm
        exact hm.2
      refine agrees_pure (trails_of_alike ⟨_, false, r.last⟩ ⟨_, false, r'.last⟩ hs ht
        { hfound with buffer := ?_, marks := rfl, marks' := rfl } ?_ rfl rfl (fun i hi => ?_)
        fun kind i hi => ?_)
      · show (r'.found s' m').buffer ++ _ = (r.found s m).buffer ++ _
        rw [hfound.buffer, hs.text, hm.span]
      · show m'.span.start + 1 = m.span.start + 1
        rw [hm.span]
      · have hi : m.span.start + 1 ≤ i := hi
        have hbegun' := hbegun hsame
        rw [hm.span] at hbegun'
        rw [begunAt_of_ne (hbegun hempty) (by omega), begunAt_of_ne hbegun' (by omega)]
      · have hbehind := h.behind kind i hi
        show i ≤ m.span.start + 1
        omega
    · rw [hs.fault, hs.arena.name, hm.span]
      exact agrees_fail _

/-! ## 5. Whole runs -/

/-- What a run comes to that has taken `steps` rounds. -/
def goOn (s : Scene) (steps : Nat) (notes : List HookNote) (r : Run) : Scanned :=
  if s.text.size < r.index then complete s notes.reverse r
  else scan s (maxSteps s - steps) steps notes r

/-- A run that is not over takes a round. -/
theorem goOn_eq (hindex : r.index ≤ s.text.size) (hsteps : steps < maxSteps s) :
    goOn s steps notes r =
      match turn s (steps + 1) r with
      | .next more r => scan s (maxSteps s - (steps + 1)) (steps + 1) (more.reverse ++ notes) r
      | .last more r => complete s (notes.reverse ++ more) r
      | .broken more f => broken (notes.reverse ++ more) r.frames r.events f := by
  obtain ⟨fuel, hfuel⟩ : ∃ fuel, maxSteps s - steps = fuel + 1 := ⟨maxSteps s - steps - 1, by omega⟩
  have hgo : goOn s steps notes r = scan s (fuel + 1) steps notes r := by
    rw [goOn, if_neg (by omega), hfuel]
  rw [hgo, show maxSteps s - (steps + 1) = fuel by omega]
  rfl

/-- A run that goes on after a round goes on from there. -/
theorem goOn_of_ok (hindex : r.index ≤ s.text.size) (hsteps : steps < maxSteps s) {r1 : Run}
    (hturn : turn s (steps + 1) r =
      if s.text.size < r1.index then .last more r1 else .next more r1) :
    goOn s steps notes r = goOn s (steps + 1) (more.reverse ++ notes) r1 := by
  rw [goOn_eq hindex hsteps, hturn, goOn]
  by_cases hlast : s.text.size < r1.index
  · simp [hlast]
  · simp [hlast]

/-- A run that goes on has rounds left. -/
theorem lt_maxSteps_of_ok {r1 : Run} (hturn : turn s (steps + 1) r =
      if s.text.size < r1.index then .last more r1 else .next more r1)
    (hr1 : r1.index ≤ s.text.size) : steps + 1 < maxSteps s := by
  rw [if_neg (by omega)] at hturn
  exact Nat.lt_of_not_le fun hmax => not_next_of_maxSteps hmax hturn

/-- A run that is going to meet nothing is over, but for the text that is left. -/
theorem goOn_of_nil (steps : Nat) (notes : List HookNote)
    (hapart : (s.top r).rules.ReadsApart s.text) (hw : r.waiting s = [])
    (hsteps : r.index ≤ s.text.size → steps < maxSteps s) :
    ∃ firstRule resumes,
      goOn s steps notes r = complete s notes.reverse { r with firstRule, resumes } := by
  by_cases hindex : s.text.size < r.index
  · exact ⟨r.firstRule, r.resumes, if_pos hindex⟩
  · obtain ⟨first, hfound⟩ := lookUp_waiting hapart
    rw [hw] at hfound
    refine ⟨first, false, ?_⟩
    rw [goOn_eq (by omega) (hsteps (by omega)), turn_of_none hfound]
    simp only [List.append_nil]
    rfl

/-- A run that has no rounds left is ended by the guard. -/
theorem guarded_of_spent (notes : List HookNote) (hindex : r.index ≤ s.text.size)
    (hspent : maxSteps s ≤ steps) (x : Scanned) : SameScanned R (goOn s steps notes r) x := by
  have hscan : goOn s steps notes r =
      broken notes.reverse r.frames r.events (s.fault (.infiniteLoop steps) r.index) := by
    rw [goOn, if_neg (by omega), show maxSteps s - steps = 0 by omega, scan]
  rw [hscan]
  exact .guarded rfl rfl

/-- A run that is going to meet something is not over. -/
theorem index_le_of_waiting (hw : r.waiting s = m :: ms) : r.index ≤ s.text.size :=
  Nat.le_of_not_lt fun hlt => by
    rw [waiting_of_size_lt hlt] at hw
    cases hw

/-- The run with fewer rounds does not lack headway where the other one does not. -/
theorem headway_same (hs : SameScene R T s s') (hle : steps' ≤ steps) {i : Nat}
    (h : lacksHeadway s steps i = false) : lacksHeadway s' steps' i = false := by
  unfold lacksHeadway at h ⊢
  rw [hs.options, hs.text]
  simp only [Bool.and_eq_false_iff, decide_eq_false_iff_not] at h ⊢
  omega

section Rounds

variable (hs : SameScene R T s s') (ht : Trims R s.arena s'.arena) (h : Trails R T s s' r r')
  (hsteps : steps < maxSteps s) (hw : r.waiting s = m :: ms)

include hs ht h hsteps hw

/-- The first run passes over a beginning that never counts; the second keeps still. -/
theorem same_of_rejected
    (hms : Thinned (SameMatch R) (Skipped s (s.top r).rules) ms (r'.waiting s'))
    (hskip : Skipped s (s.top r).rules m)
    (hnext : ∀ r1, Trails R T s s' r1 r' →
      SameScanned R (goOn s (steps + 1) notes r1) (goOn s' steps' notes r')) :
    SameScanned R (goOn s steps notes r) (goOn s' steps' notes r') := by
  obtain ⟨first, hfound⟩ := lookUp_waiting (ht.apart (hs.topId h.frames) s.text).1
  rw [hw] at hfound
  have hindex := index_le_of_waiting hw
  cases hlacks : lacksHeadway s (steps + 1) m.span.start with
  | true =>
    rw [goOn_eq hindex hsteps, turn_of_lacksHeadway hfound hlacks]
    exact .guarded rfl rfl
  | false =>
    obtain ⟨id, hkind, hrejected, hends⟩ := hskip
    rw [goOn_of_ok hindex hsteps (turn_of_ok hfound hlacks (step_rejected hkind hrejected))]
    exact hnext _ (trails_rejected h hw hms ⟨id, hkind, hrejected, hends⟩)

/-- Both runs handle a match that both find. -/
theorem same_of_met (hw' : r'.waiting s' = m' :: ms') (hm : SameMatch R m m')
    (hms : Thinned (SameMatch R) (Skipped s (s.top r).rules) ms ms') (hle : steps' ≤ steps)
    (hroom : r'.index ≤ s'.text.size → steps' < maxSteps s')
    (hnext : ∀ more r1 r1', Trails R T s s' r1 r1' →
      (r1'.index ≤ s'.text.size → steps' + 1 < maxSteps s') →
      SameScanned R (goOn s (steps + 1) (more ++ notes) r1)
        (goOn s' (steps' + 1) (more ++ notes) r1')) :
    SameScanned R (goOn s steps notes r) (goOn s' steps' notes r') := by
  obtain ⟨hapart, hapart'⟩ := ht.apart (hs.topId h.frames) s.text
  rw [← hs.text] at hapart'
  obtain ⟨first, hfound⟩ := lookUp_waiting hapart
  obtain ⟨first', hfound'⟩ := lookUp_waiting hapart'
  rw [hw] at hfound
  rw [hw'] at hfound'
  have hindex := index_le_of_waiting hw
  have hindex' := index_le_of_waiting hw'
  cases hlacks : lacksHeadway s (steps + 1) m.span.start with
  | true =>
    rw [goOn_eq hindex hsteps, turn_of_lacksHeadway hfound hlacks]
    exact .guarded rfl rfl
  | false =>
    have hlacks' : lacksHeadway s' (steps' + 1) m'.span.start = false := by
      rw [hm.span]
      exact headway_same hs (Nat.succ_le_succ hle) hlacks
    have hordered : Ordered m := (Arena.finds_next hfound).ordered
    have hstep := agrees_step hs ht h hw hw' hm hms hordered
    generalize hx : step s m _ = x at hstep
    generalize hx' : step s' m' _ = x' at hstep
    obtain ⟨more, result⟩ := x
    obtain ⟨more', result'⟩ := x'
    rcases hstep with ⟨f, hf, hloop⟩ | ⟨hmore, hresult⟩
    · cases (show result = .error f from hf)
      rw [goOn_eq hindex hsteps, turn_of_error hfound hlacks hx]
      exact .guarded rfl hloop
    · cases (show more = more' from hmore)
      cases (show SameResult _ result result' from hresult) with
      | error f =>
        rw [goOn_eq hindex hsteps, turn_of_error hfound hlacks hx,
          goOn_eq hindex' (hroom hindex'), turn_of_error hfound' hlacks' hx']
        simp only [broken, h.events]
        exact .same h.frames
      | ok h1 =>
        have hturn' := turn_of_ok hfound' hlacks' hx'
        rw [goOn_of_ok hindex hsteps (turn_of_ok hfound hlacks hx),
          goOn_of_ok hindex' (hroom hindex') hturn']
        exact hnext _ _ _ h1 (lt_maxSteps_of_ok hturn')

end Rounds

/-- **Runs that trail come to the same**, unless the guard ends the first. The second has taken no
    more rounds than the first. -/
theorem same_goOn (hs : SameScene R T s s') (ht : Trims R s.arena s'.arena) :
    ∀ (rounds steps steps' : Nat) (notes : List HookNote) (r r' : Run),
      maxSteps s - steps = rounds → steps' ≤ steps →
      (r'.index ≤ s'.text.size → steps' < maxSteps s') → Trails R T s s' r r' →
      SameScanned R (goOn s steps notes r) (goOn s' steps' notes r') := by
  intro rounds
  -- Every round is one of the first run; the second keeps still where a rule is left out.
  induction rounds using Nat.strongRecOn with
  | _ rounds ih =>
    intro steps steps' notes r r' hrounds hsteps hroom h
    by_cases hspent : r.index ≤ s.text.size ∧ maxSteps s ≤ steps
    · exact guarded_of_spent notes hspent.1 hspent.2 _
    have hwaiting := h.waiting
    generalize hw : r.waiting s = ms at hwaiting
    generalize hw' : r'.waiting s' = ms' at hwaiting
    cases hwaiting with
    | nil =>
      obtain ⟨hapart, hapart'⟩ := ht.apart (hs.topId h.frames) s.text
      rw [← hs.text] at hapart'
      obtain ⟨first, resumes, hgo⟩ := goOn_of_nil steps notes hapart hw fun hindex => by omega
      obtain ⟨first', resumes', hgo'⟩ := goOn_of_nil steps' notes hapart' hw' hroom
      rw [hgo, hgo']
      exact same_complete hs _ { h.heldToEnd hs.text with marks := rfl, marks' := rfl }
    | leave hskip hms =>
      have hindex := index_le_of_waiting hw
      rw [← hw'] at hms
      exact same_of_rejected hs ht h (by omega) hw hms hskip fun r1 h1 =>
        ih (maxSteps s - (steps + 1)) (by omega) _ _ _ _ _ rfl (by omega) hroom h1
    | keep hm hms =>
      have hindex := index_le_of_waiting hw
      exact same_of_met hs ht h (by omega) hw hw' hm hms hsteps hroom fun more r1 r1' h1 hroom' =>
        ih (maxSteps s - (steps + 1)) (by omega) _ _ _ _ _ rfl (by omega) hroom' h1

/-! ## 6. Beginnings and ends of runs -/

/-- The same modes, as those that a run can begin in. -/
structure SameStack (R : Nat → Nat → Prop) (arena arena' : Arena) (stack stack' : List Nat) :
    Prop where
  modes : List.Forall₂ R stack stack'
  valid : arena'.isValidStack stack' = arena.isValidStack stack

section Stacks

variable {arena arena' : Arena} {stack stack' : List Nat}

theorem same_startStack (ht : Trims R arena arena') {c c' : Option (List Nat)}
    (hc : Option.Rel (SameStack R arena arena') c c') :
    List.Forall₂ R (startStack arena c) (startStack arena' c') := by
  have hroot : List.Forall₂ R [arena.root] [arena'.root] := .cons ht.same.root .nil
  cases hc with
  | none => exact hroot
  | some hstack =>
    simp only [startStack, hstack.valid]
    split
    · exact hstack.modes
    · exact hroot

theorem alike_startIn (ht : Trims R arena arena') (h : List.Forall₂ R stack stack') :
    (startIn arena stack).Alike R T ⟨0, false, none⟩ ⟨0, false, none⟩ (startIn arena' stack') := by
  have hdrop : List.Forall₂ R (stack.drop 1) (stack'.drop 1) := List.forall₂_drop 1 h
  have hframes : List.Forall₂ (SameFrame R) (framesOf stack) (framesOf stack') := by
    unfold framesOf
    rw [List.forall₂_map_left_iff, List.forall₂_map_right_iff]
    exact (List.rel_reverse hdrop).imp fun _ _ hid => ⟨hid, rfl⟩
  have hopen : ∀ {ids ids' : List Nat} {r r' : Run}, List.Forall₂ R ids ids' →
      r.Alike R T ⟨0, false, none⟩ ⟨0, false, none⟩ r' →
      Run.Alike R T ⟨0, false, none⟩ ⟨0, false, none⟩
        (ids.foldl (fun r id => r.openMode arena (arena.mode id)) r)
        (ids'.foldl (fun r id => r.openMode arena' (arena'.mode id)) r') := by
    intro ids ids' r r' hids
    induction hids generalizing r r' with
    | nil => exact id
    | cons hid _ ih => exact fun h => ih (h.openMode ht.same (ht.same.modes hid))
  exact hopen hdrop ⟨hframes, rfl, rfl, rfl, rfl, fun _ => .none, rfl, rfl⟩

theorem index_startIn (arena : Arena) (stack : List Nat) : (startIn arena stack).index = 0 := by
  have hopen : ∀ (ids : List Nat) (r : Run),
      (ids.foldl (fun r id => r.openMode arena (arena.mode id)) r).index = r.index := by
    intro ids
    induction ids with
    | nil => exact fun _ => rfl
    | cons id ids ih =>
      intro r
      refine (ih _).trans ?_
      show (r.openMode arena (arena.mode id)).index = r.index
      unfold Run.openMode
      split <;> rfl
  exact hopen _ _

/-- The modes that are open at the end of a run are such that another one can begin in them. -/
theorem sameStack_stack (hs : SameScene R T s s') (ht : Trims R s.arena s'.arena)
    {frames frames' : List Frame} (h : List.Forall₂ (SameFrame R) frames frames') :
    SameStack R s.arena s'.arena (s.stack frames) (s'.stack frames') := by
  have hmodes : List.Forall₂ R (s.stack frames) (s'.stack frames') := by
    refine .cons hs.arena.root (List.rel_reverse ?_)
    rw [List.forall₂_map_left_iff, List.forall₂_map_right_iff]
    exact h.imp fun _ _ hf => hf.mode
  have hvalid : ∀ {ids ids' : List Nat}, List.Forall₂ R ids ids' →
      (∀ id ∈ ids, id < s.arena.modes.size) ∧ ∀ id ∈ ids', id < s'.arena.modes.size := by
    intro ids ids' hids
    induction hids with
    | nil => simp
    | cons hid _ ih =>
      obtain ⟨hlt, hlt'⟩ := ht.bounded hid
      exact ⟨List.forall_mem_cons.mpr ⟨hlt, ih.1⟩, List.forall_mem_cons.mpr ⟨hlt', ih.2⟩⟩
  refine ⟨hmodes, ?_⟩
  have hall := List.all_eq_true.mpr fun id hid => decide_eq_true ((hvalid hmodes).1 id hid)
  have hall' := List.all_eq_true.mpr fun id hid => decide_eq_true ((hvalid hmodes).2 id hid)
  unfold Arena.isValidStack
  rw [hall, hall']
  simp [Scene.stack]

end Stacks

theorem goOn_initial (s : Scene) (c : Option (List Nat)) :
    goOn s 0 [] (initial s.arena c) = scanAll s c := by
  unfold goOn
  rw [if_neg]
  · rfl
  · unfold initial
    rw [index_startIn]
    exact Nat.not_lt_zero _

/-- **A whole run comes to the same without beginnings that never count**, unless the guard ends
    it. -/
theorem same_scanAll (hs : SameScene R T s s') (ht : Trims R s.arena s'.arena)
    {c c' : Option (List Nat)} (hc : Option.Rel (SameStack R s.arena s'.arena) c c') :
    SameScanned R (scanAll s c) (scanAll s' c') := by
  have halike : (initial s.arena c).Alike R T ⟨0, false, none⟩ ⟨0, false, none⟩
      (initial s'.arena c') := alike_startIn ht (same_startStack ht hc)
  have hindex : (initial s'.arena c').index = (initial s.arena c).index := by
    unfold initial
    rw [index_startIn, index_startIn]
  rw [← goOn_initial, ← goOn_initial]
  refine same_goOn hs ht _ 0 0 [] _ _ rfl (Nat.le_refl _) (fun _ => Nat.succ_pos _) ?_
  exact trails_of_alike _ _ hs ht halike hindex rfl rfl (fun _ _ => rfl) (fun _ _ h => by cases h)

end Highlight.Scan
