import Highlight.Proofs.Arena.LeadIn
import Highlight.Proofs.Scan.Guard
import Highlight.Proofs.Scan.ToldEnds

/-!
# Modes that are led in

A mode that something comes before is entered by way of two other modes: its lead-in, which begins
with what comes before, and the mode between, which the lead-in starts where it ends at once. If the
mode begins there, it is opened inside the mode between; else that ends at once, too. When the mode
ends, the mode between ends with it, and what was open before the lead-in began is open again.

* `Stops`, `endOf_stops` -- an end that is passed on to a mode that ends anywhere goes no further;
* `outermost_endOf` -- the last mode that an end closes does not end its parent;
* `LedIn` -- what comes before a mode is found, in a round of a run;
* `Since` -- some modes have stayed open for some rounds;
* `Leading`, `leading_reached` -- what is led in at every point of a run.
-/

namespace Highlight.Scan

open Highlight.Arena (ArenaMode EndsAtOnce Follows LeadIn RuleMatch compileLanguage spanAt)
open Highlight.Grammar (HookNote Language)
open Highlight.Pattern (Plain)

variable {s : Scene} {r r' : Run} {m : RuleMatch} {name : String} {language : Language}
  {continuation : Option (List Nat)} {g : Frame} {above outer asked frames : List Frame}
  {n k first : Nat}

/-! ## 1. Ends that go no further -/

/-- **A mode stops an end**: it ends where the match stands, without asking, and does not end its
    parent. -/
structure Stops (s : Scene) (m : RuleMatch) (mode : ArenaMode) : Prop where
  endsAt : endsAt s mode m.span.start = true
  hookless : mode.onEnd = none
  endsAlone : mode.endsParent = false

/-- A mode that ends at once stops every end. -/
theorem stops_of_endsAtOnce {mode : ArenaMode} (h : EndsAtOnce mode)
    (hm : m.span.start ≤ s.text.size) : Stops s m mode := by
  refine ⟨?_, h.hookless.2, h.endsAlone.2⟩
  rw [endsAt, h.endRegex, Option.any_some, Regex.matchAt, if_pos hm, Arena.matchFrom_anywhere]
  rfl

/-- A mode that stops an end closes, and the frames are left as they are. -/
theorem endOf_cons_of_stops (h : Stops s m (s.arena.mode g.mode)) (outer : List Frame) :
    endOf s m (g :: outer) = pure (some 1, g :: outer) := by
  have hclosing : closingWith s.arena (g :: outer) = 1 := by
    rw [closingWith, h.endsAlone]
    rfl
  rw [endOf, askEnd, h.endsAt, h.hookless]
  show (pure (some (closingWith s.arena (g :: outer)), g :: outer) : Attempt _) = _
  rw [hclosing]

/-- **An end goes no further than to a mode that stops it**: it closes no mode further out, and asks
    none of their hooks. -/
theorem endOf_stops (h : Stops s m (s.arena.mode g.mode)) (above outer : List Frame) :
    (endOf s m (above ++ g :: outer)).Meets (fun answer =>
      (∃ above', answer.2 = above' ++ g :: outer ∧ above'.length = above.length) ∧
        ∀ n, answer.1 = some n → n ≤ above.length + 1) fun _ => True := by
  induction above with
  | nil =>
    rw [List.nil_append, endOf_cons_of_stops h]
    refine Attempt.meets_pure ⟨⟨[], rfl, rfl⟩, fun n hn => ?_⟩
    cases hn
    exact Nat.le_refl 1
  | cons f above ih =>
    have hclosing : ∀ fs : List Frame, closingWith s.arena (fs ++ g :: outer) ≤ fs.length + 1 := by
      intro fs
      induction fs with
      | nil =>
        rw [List.nil_append, closingWith, h.endsAlone]
        exact Nat.le_refl 1
      | cons f fs ihs =>
        rw [List.cons_append, closingWith, List.length_cons]
        split <;> omega
    rw [List.cons_append]
    unfold endOf
    refine Attempt.meets_bind (Attempt.meets_any _) fun reply _ => ?_
    obtain ⟨counts, data⟩ := reply
    simp only
    split
    · refine Attempt.meets_pure ⟨⟨{ f with data } :: above, rfl, rfl⟩, fun n hn => ?_⟩
      cases hn
      exact hclosing ({ f with data } :: above)
    · split
      · refine Attempt.meets_bind ih fun answer hanswer => ?_
        obtain ⟨count, asked⟩ := answer
        obtain ⟨⟨above', hasked, hlength⟩, hle⟩ := hanswer
        refine Attempt.meets_pure ⟨⟨{ f with data } :: above', congrArg _ hasked,
          congrArg Nat.succ hlength⟩, fun n hn => ?_⟩
        obtain ⟨n', hn', rfl⟩ := Option.map_eq_some_iff.mp hn
        have := hle n' hn'
        rw [List.length_cons]
        omega
      · refine Attempt.meets_pure ⟨⟨{ f with data } :: above, rfl, rfl⟩, fun n hn => ?_⟩
        cases hn

/-- **The outermost mode that an end closes does not end its parent**, unless it stands right inside
    the root. -/
theorem outermost_endOf (s : Scene) (m : RuleMatch) (frames : List Frame) :
    (endOf s m frames).Meets (fun answer => ∀ n f, answer.1 = some (n + 1) →
      answer.2[n]? = some f → (s.arena.mode f.mode).endsParent = true → answer.2.length = n + 1)
      fun _ => True := by
  have hclosing : ∀ (frames : List Frame) (n : Nat) (f : Frame),
      closingWith s.arena frames = n + 1 → frames[n]? = some f →
      (s.arena.mode f.mode).endsParent = true → frames.length = n + 1 := by
    intro frames
    induction frames with
    | nil => exact fun n f h => by cases h
    | cons f0 rest ih =>
      intro n f hn hf hends
      rw [closingWith] at hn
      split at hn
      · rename_i htakes
        obtain rfl : n = closingWith s.arena rest := (Nat.succ.inj hn).symm
        cases rest with
        | nil => simp at htakes
        | cons f1 rest =>
          obtain ⟨n', hn'⟩ : ∃ n', closingWith s.arena (f1 :: rest) = n' + 1 := by
            rw [closingWith]
            split <;> exact ⟨_, rfl⟩
          rw [hn', List.getElem?_cons_succ] at hf
          rw [List.length_cons, hn', ih n' f hn' hf hends]
      · rename_i htakes
        obtain rfl : n = 0 := (Nat.succ.inj hn).symm
        cases hf
        cases rest with
        | nil => rfl
        | cons f1 rest => simp [hends] at htakes
  induction frames with
  | nil => exact Attempt.meets_pure fun n f h => by cases h
  | cons f0 rest ih =>
    unfold endOf
    refine Attempt.meets_bind (Attempt.meets_any _) fun reply _ => ?_
    obtain ⟨counts, data⟩ := reply
    simp only
    split
    · refine Attempt.meets_pure fun n f hn hf hends => ?_
      exact hclosing _ n f (Option.some.inj hn) hf hends
    · split
      · have hpos := Attempt.meets_mono (pos_endOf s m rest) (fun _ h => h) fun _ _ => trivial
        refine Attempt.meets_bind (Attempt.meets_and ih hpos) fun answer hanswer => ?_
        obtain ⟨count, asked⟩ := answer
        refine Attempt.meets_pure fun n f hn hf hends => ?_
        obtain ⟨n', hn', heq⟩ := Option.map_eq_some_iff.mp hn
        obtain rfl : n' = n := Nat.succ.inj heq
        obtain ⟨n, rfl⟩ := Nat.exists_eq_succ_of_ne_zero (Nat.pos_iff_ne_zero.mp (hanswer.2 n' hn'))
        rw [List.getElem?_cons_succ] at hf
        rw [List.length_cons, hanswer.1 n f hn' hf hends]
      · exact Attempt.meets_pure fun n f h => by cases h

/-! ## 2. Steps that cannot fail -/

section Succeeding

variable {mode : ArenaMode}

/-- Text can be told in a mode that hands none to another language. -/
theorem exists_flush (h : (s.top r).subLanguage = none) : ∃ r', (flush s r).result = .ok r' := by
  have htop : (s.top { r with buffer := "" }).subLanguage = none := h
  unfold flush
  simp only
  rw [htop]
  exact ⟨_, rfl⟩

theorem exists_holdBegin (h : (s.top r).subLanguage = none) (mode : ArenaMode) (t : String) :
    ∃ r', (holdBegin s mode t r).result = .ok r' := by
  unfold holdBegin
  split
  · exact ⟨_, rfl⟩
  · have htop : (s.top (if mode.excludeBegin then r.hold t else r)).subLanguage = none := by
      split <;> exact h
    obtain ⟨r1, hr1⟩ := exists_flush htop
    rw [Attempt.result_bind_of_ok hr1]
    exact ⟨_, rfl⟩

theorem exists_holdEnd (h : (s.top r).subLanguage = none) (mode : ArenaMode) (m : RuleMatch) :
    ∃ r', (holdEnd s mode m r).result = .ok r' := by
  unfold holdEnd
  simp only
  split
  · obtain ⟨r1, hr1⟩ := exists_flush h
    rw [Attempt.result_bind_of_ok hr1]
    exact ⟨_, rfl⟩
  · obtain ⟨r1, hr1⟩ := exists_flush h
    rw [Attempt.result_bind_of_ok hr1]
    exact ⟨_, rfl⟩
  · split
    · exact ⟨_, rfl⟩
    · have htop : (s.top (if mode.returnEnd || mode.excludeEnd then r
          else r.hold (lexeme s m))).subLanguage = none := by
        split <;> exact h
      obtain ⟨r1, hr1⟩ := exists_flush htop
      rw [Attempt.result_bind_of_ok hr1]
      exact ⟨_, rfl⟩

/-- **A match that counts can be handled** in a mode that hands no text to another language. -/
theorem exists_step (h : (s.top r).subLanguage = none) (hcounts : Counts s m r) :
    ∃ r', (step s m r).result = .ok r' := by
  have hmet : (s.top (r.meet s m)).subLanguage = none := h
  rcases hcounts with ⟨hkind, hdot, hreply⟩ | ⟨hkind, hfull, hanswer⟩
  · rename_i id data
    have hfull : isEmptyMode m r.last = false := by
      unfold isEmptyMode
      split
      · rw [hkind]
        rfl
      · rfl
    rw [step_of_not_empty hfull, act, hkind]
    simp only
    obtain ⟨r1, hr1⟩ := exists_holdBegin hmet (s.arena.mode id) (lexeme s m)
    unfold beginStep
    simp only [hdot, Bool.false_eq_true, if_false]
    rw [Attempt.result_bind_of_ok hreply]
    simp only [Bool.not_true, Bool.false_eq_true, if_false]
    rw [Attempt.result_bind_of_ok hr1]
    exact ⟨_, rfl⟩
  · rename_i n frames
    rw [step_of_not_empty hfull, act, hkind]
    simp only
    have htop : (s.top { r.meet s m with frames }).subLanguage = none := by
      rw [← h]
      exact congrArg (fun id => (s.arena.mode id).subLanguage)
        (topId_congr ((meets_endOf s m r.frames).1 _ hanswer).1)
    obtain ⟨r1, hr1⟩ := exists_holdEnd htop (s.top { r.meet s m with frames }) m
    have hmet : (endOf s m (r.meet s m).frames).result = .ok (some n, frames) := hanswer
    unfold endStep
    rw [Attempt.result_bind_of_ok hmet]
    simp only
    rw [Attempt.result_bind_of_ok hr1]
    exact ⟨_, rfl⟩

/-- **A run goes on after a match that counts**, in a mode that hands no text to another language,
    unless the guard ends it. -/
theorem goes_on_of_counts (h : (s.top r).subLanguage = none)
    (hl : lookUp s r = .ok (some m, first)) (hcounts : Counts s m (r.atRule first))
    (hheadway : lacksHeadway s n m.span.start = false) : ∃ notes r', turn s n r = .next notes r' := by
  have hfinds := Arena.finds_next hl
  obtain ⟨r', hr'⟩ := exists_step (r := r.atRule first) h hcounts
  obtain ⟨notes, hstep⟩ : ∃ notes, step s m (r.atRule first) = ⟨notes, .ok r'⟩ := by
    cases hstep : step s m (r.atRule first) with
    | mk notes result =>
      rw [hstep] at hr'
      exact ⟨notes, congrArg _ hr'⟩
  have hindex : r'.index ≤ s.text.size := by
    have hstop := hfinds.stop_le
    have hstart := Nat.le_trans hfinds.ordered hstop
    cases (steps_step (r := r.atRule first) hfinds.from_le hfinds.ordered).1 r' hr' with
    | opened _ _ hopened =>
      rw [hopened.index]
      split <;> assumption
    | closed _ _ _ hclosed =>
      rw [hclosed.index]
      split <;> assumption
    | passed hnot => exact absurd hcounts hnot
  refine ⟨notes, r', ?_⟩
  rw [turn_of_ok hl hheadway hstep, if_neg (Nat.not_lt_of_le hindex)]

/-- The guard that ends a run after some rounds ends it after more. -/
theorem lacksHeadway_mono {i : Nat} (h : lacksHeadway s n i = true) (hle : n ≤ k) :
    lacksHeadway s k i = true := by
  obtain ⟨hfloor, hway⟩ := lacksHeadway_iff.mp h
  exact lacksHeadway_iff.mpr ⟨Nat.lt_of_lt_of_le hfloor hle, Nat.lt_of_lt_of_le hway hle⟩

end Succeeding

/-! ## 3. What stands on what -/

section Standing

variable {before opening : String} {w next o p c : Nat} {f f' : Frame} {below : List Frame}

/-- Open modes that stand on one another follow one another. -/
theorem follows_of_linked (h : Linked s.arena (s.stack (above ++ f' :: f :: below))) :
    Follows s.arena f.mode f'.mode := by
  induction above with
  | nil =>
    rw [List.nil_append, stack_cons, stack_cons] at h
    exact (List.isChain_append.mp h).2.2 f.mode (List.getLast?_concat ..) f'.mode rfl
  | cons g above ih =>
    rw [List.cons_append, stack_cons] at h
    exact ih (List.isChain_append.mp h).1

/-- The mode that stands on the root follows it. -/
theorem follows_root (h : Linked s.arena (s.stack (above ++ [f]))) :
    Follows s.arena s.arena.root f.mode := by
  induction above with
  | nil =>
    rw [List.nil_append, stack_cons] at h
    exact (List.isChain_append.mp h).2.2 s.arena.root rfl f.mode rfl
  | cons g above ih =>
    rw [List.cons_append, stack_cons] at h
    exact ih (List.isChain_append.mp h).1

variable {arena : Arena} (hlead : LeadIn arena before opening w next o)

include hlead

/-- Nothing stands on a lead-in. -/
theorem not_follows_leadIn (h : Follows arena w c) : False := by
  induction h with
  | inside hc =>
    rw [hlead.leadsTo.1] at hc
    cases hc
  | started _ _ ih => exact ih

/-- On the mode between stands nothing but what it is for. -/
theorem eq_led_of_follows (h : Follows arena next c) : c = o := by
  induction h with
  | inside hc =>
    rw [hlead.holds.1] at hc
    exact List.mem_singleton.mp hc
  | started _ hc ih =>
    rw [ih] at hc
    cases hlead.led.2.2.1.symm.trans hc

/-- What is led in stands on the mode between, or in itself. -/
theorem next_or_led_of_follows (h : Follows arena p o) : p = next ∨ p = o := by
  cases h with
  | inside hc => exact hlead.inside p hc
  | started _ hs => exact absurd hs (hlead.startsLed _)

end Standing

/-! ## 4. Rounds that lead in -/

/-- **What comes before a mode is found**, after `k` rounds of a run: the lead-in `w` begins with the
    match. -/
structure LedIn (s : Scene) (continuation : Option (List Nat)) (w k : Nat) (r : Run) (m : RuleMatch) :
    Prop where
  reached : Reached s continuation k r
  found : ∃ first, lookUp s r = .ok (some m, first)
  kind : m.kind = .begins w

/-- **Some modes have stayed open** since `k` rounds of a run, up to `n` rounds. -/
def Since (s : Scene) (continuation : Option (List Nat)) (k n : Nat) (frames : List Frame) : Prop :=
  ∀ j r, k ≤ j → j ≤ n → Reached s continuation j r → frames <:+ r.frames

theorem since_self (h : Reached s continuation n r) (hframes : frames <:+ r.frames) :
    Since s continuation n n frames := by
  intro j r' hle hle' hr'
  obtain rfl := Nat.le_antisymm hle' hle
  rw [reached_unique hr' h]
  exact hframes

theorem Since.succ (h : Since s continuation k n frames) (hr : Reached s continuation (n + 1) r)
    (hframes : frames <:+ r.frames) : Since s continuation k (n + 1) frames := by
  intro j r' hle hle' hr'
  rcases Nat.lt_succ_iff_lt_or_eq.mp (Nat.lt_succ_of_le hle') with hlt | rfl
  · exact h j r' hle (Nat.le_of_lt_succ hlt) hr'
  · rw [reached_unique hr' hr]
    exact hframes

/-- **A lead-in begins where its beginning is read**: in any mode whose patterns are plain. -/
theorem LedIn.read {w : Nat} (h : LedIn s continuation w k r m)
    (hc : compileLanguage name language = .ok s.arena)
    (hplain : ∀ rule ∈ (s.top r).rules.rules, Plain language.caseInsensitive rule.source) :
    ∃ origin, spanAt language.caseInsensitive s.text origin m.span.start
      (s.arena.mode w).beginSource = some m.span := by
  obtain ⟨first, hl⟩ := h.found
  have hid := topId_lt_size hc (inStep_between hc (.inl ⟨k, h.reached⟩))
  obtain ⟨rule, hrule, hkind, _, origin, hread⟩ := Arena.exists_reads hc hid hplain hl
  have hbegins := Arena.eq_begins_of_mem (Arena.wellFormed_of_compileLanguage hc) hid hrule
    (hkind.symm.trans h.kind)
  have hspan : (rule.reads language.caseInsensitive s.text origin m.span.start m.rule).map (·.span) =
      spanAt language.caseInsensitive s.text origin m.span.start rule.source :=
    Arena.span_reads rule m.rule
  rw [hread, hbegins] at hspan
  exact ⟨origin, hspan.symm⟩

/-- **A run that is free to lead a mode in**: no hook turns the beginning of the mode `o` down; the run
    takes up what an earlier one has left, but begins neither in the lead-in `w` nor in the mode
    between; and what comes before the mode never reads nothing. -/
structure FreeToLead (s : Scene) (continuation : Option (List Nat)) (w next o : Nat) : Prop where
  hooks : ∀ m, ∃ data, (askHook? s (s.arena.mode o).onBegin m .empty).result = .ok (true, data)
  continued : ∀ stack, continuation = some stack → StackReached s.arena stack
  outside : ∀ id, (startStack s.arena continuation).getLast? = some id → id ≠ w ∧ id ≠ next
  reads : ∀ k r m, LedIn s continuation w k r m → m.span.start < m.span.stop

/-- **A run in which a mode is led in**: it is free to, and the three modes are those of the language,
    none of which starts the lead-in; and the beginning of the mode is plain. -/
structure LeadsIn (s : Scene) (language : Language) (continuation : Option (List Nat))
    (before opening : String) (w next o : Nat) : Prop
    extends FreeToLead s continuation w next o where
  compiled : ∃ name, compileLanguage name language = .ok s.arena
  modes : LeadIn s.arena before opening w next o
  unstarted : ∀ p, (s.arena.mode p).starts ≠ some w
  plain : Plain language.caseInsensitive opening

/-- **What is led in at a point of a run**, after `n` rounds. The lead-in is open only in the round
    after it has been found, and the mode between is the innermost only in the round after that; else
    the mode between has been open ever since, on the modes that were open before. -/
structure Leading (s : Scene) (continuation : Option (List Nat)) (w next n : Nat) (r : Run) : Prop where
  leadIn : ∀ f outer, r.frames = f :: outer → f.mode = w → ∃ k r0 m, LedIn s continuation w k r0 m ∧
    n = k + 1 ∧ outer = r0.frames ∧ r.index = m.span.stop ∧
      r.last = some (.begins w, m.span.start) ∧ r.resumes = false
  between : ∀ f outer, r.frames = f :: outer → f.mode = next → ∃ k r0 m,
    LedIn s continuation w k r0 m ∧ n = k + 2 ∧ outer = r0.frames ∧ r.index = m.span.stop ∧
      r.last = some (.ends, m.span.stop) ∧ r.resumes = false
  inside : ∀ f outer, f :: outer <:+ r.frames → f.mode = next →
    (∃ k r0 m, LedIn s continuation w k r0 m ∧ k + 2 ≤ n ∧ outer = r0.frames ∧
      Since s continuation (k + 2) n (f :: outer)) ∨ Since s continuation 0 n (f :: outer)

section Run

variable {before opening : String} {w next o : Nat} {f : Frame} {notes : List HookNote}
  (h : LeadsIn s language continuation before opening w next o)

include h

/-- A run begins with nothing led in, but for what an earlier one has left. -/
theorem leading_start : Leading s continuation w next 0 (initial s.arena continuation) := by
  have htop : ∀ f outer, (initial s.arena continuation).frames = f :: outer →
      f.mode ≠ w ∧ f.mode ≠ next := by
    intro f outer hframes
    refine h.outside f.mode ?_
    rw [← stack_initial s continuation, getLast?_stack, hframes]
    rfl
  refine ⟨fun f outer hframes hf => absurd hf (htop f outer hframes).1,
    fun f outer hframes hf => absurd hf (htop f outer hframes).2, fun f outer hsuffix _ => .inr ?_⟩
  exact since_self .start hsuffix

omit h in
/-- A match that is found lies in the text. -/
theorem LedIn.stop_le {r0 : Run} {m0 : RuleMatch} (hled : LedIn s continuation w k r0 m0) :
    m0.span.stop ≤ s.text.size := by
  obtain ⟨first, hl⟩ := hled.found
  exact (Arena.finds_next hl).stop_le

/-- What is looked up in a lead-in is its end, at once. -/
theorem lookUp_leadIn (hframes : r.frames = f :: outer) (hf : f.mode = w)
    (hresumes : r.resumes = false) (hi : r.index ≤ s.text.size) : ∃ m first,
      lookUp s r = .ok (some m, first) ∧ m.kind = .ends ∧ m.span = ⟨r.index, r.index⟩ := by
  obtain ⟨name, hc⟩ := h.compiled
  subst hf
  obtain ⟨m, first, hnext, _, hkind⟩ := h.modes.leads.finds hc h.modes.below.1
    (by rw [h.modes.leadsTo.1]; exact fun _ hc => by cases hc) hi
  have hl : lookUp s r = .ok (some m, first) := by
    rw [lookUp, hresumes, Scene.top, hframes]
    exact hnext
  rcases hkind with ⟨c, hc, _⟩ | ⟨hends, hspan, _⟩
  · rw [h.modes.leadsTo.1] at hc
    cases hc
  · exact ⟨m, first, hl, hends, hspan⟩

/-- What is looked up in the mode between is the beginning of what is led in, at once, or else the
    end. -/
theorem lookUp_between (hframes : r.frames = f :: outer) (hf : f.mode = next)
    (hresumes : r.resumes = false) (hi : r.index ≤ s.text.size) : ∃ m first,
      lookUp s r = .ok (some m, first) ∧ m.span.start = r.index ∧ (m.kind = .begins o ∧
          spanAt language.caseInsensitive s.text r.index r.index opening = some m.span ∨
        m.kind = .ends ∧ m.span = ⟨r.index, r.index⟩ ∧
          spanAt language.caseInsensitive s.text r.index r.index opening = none) := by
  obtain ⟨name, hc⟩ := h.compiled
  subst hf
  have hplain : ∀ c ∈ (s.arena.mode f.mode).contains,
      Plain language.caseInsensitive (s.arena.mode c).beginSource := by
    intro c hmem
    rw [h.modes.holds.1] at hmem
    rw [List.mem_singleton.mp hmem, h.modes.led.1]
    exact h.plain
  obtain ⟨m, first, hnext, hstart, hkind⟩ := h.modes.between.finds hc h.modes.below.2.1 hplain hi
  have hl : lookUp s r = .ok (some m, first) := by
    rw [lookUp, hresumes, Scene.top, hframes]
    exact hnext
  refine ⟨m, first, hl, hstart, hkind.imp ?_ ?_⟩
  · rintro ⟨c, hmem, hbegins, hspan⟩
    rw [h.modes.holds.1] at hmem
    obtain rfl := List.mem_singleton.mp hmem
    exact ⟨hbegins, h.modes.led.1 ▸ hspan⟩
  · rintro ⟨hends, hspan, hnone⟩
    refine ⟨hends, hspan, ?_⟩
    rw [← h.modes.led.1]
    exact hnone o (by rw [h.modes.holds.1]; exact List.mem_singleton_self o)

/-- The mode between stops every end that is found. -/
theorem stops_between (hl : lookUp s r = .ok (some m, first)) (hf : f.mode = next) :
    Stops s m (s.arena.mode f.mode) := by
  have hfinds := Arena.finds_next hl
  exact hf ▸ stops_of_endsAtOnce h.modes.between (Nat.le_trans hfinds.ordered hfinds.stop_le)

/-- **The round after a lead-in has been found** ends it, at once, and goes no further. -/
theorem found_leadIn (hl : Leading s continuation w next n r) (hframes : r.frames = f :: outer)
    (hf : f.mode = w) : ∃ k r0 m0 m first, LedIn s continuation w k r0 m0 ∧ n = k + 1 ∧
      outer = r0.frames ∧ r.index = m0.span.stop ∧ lookUp s r = .ok (some m, first) ∧
      m.kind = .ends ∧ m.span = ⟨m0.span.stop, m0.span.stop⟩ ∧ isEmptyMode m r.last = false ∧
      (endOf s m r.frames).result = .ok (some 1, r.frames) := by
  obtain ⟨k, r0, m0, hled, hn, houter, hindex, hlast, hresumes⟩ := hl.leadIn f outer hframes hf
  obtain ⟨m, first, hfound, hends, hspan⟩ := lookUp_leadIn h hframes hf hresumes
    (hindex ▸ hled.stop_le)
  rw [hindex] at hspan
  refine ⟨k, r0, m0, m, first, hled, hn, houter, hindex, hfound, hends, hspan, ?_, ?_⟩
  · have hne : (m0.span.start == m0.span.stop) = false := by
      have := h.reads k r0 m0 hled
      simp only [beq_eq_false_iff_ne]
      omega
    rw [hlast, isEmptyMode, hspan, hne, Bool.and_false, Bool.false_and]
  · have hstops : Stops s m (s.arena.mode f.mode) :=
      hf ▸ stops_of_endsAtOnce h.modes.leads (hspan ▸ hled.stop_le)
    rw [hframes, endOf_cons_of_stops hstops]
    rfl

/-- **The round after that** begins what is led in, at once, or ends the mode between. -/
theorem found_between (hl : Leading s continuation w next n r) (hframes : r.frames = f :: outer)
    (hf : f.mode = next) : ∃ k r0 m0 m first, LedIn s continuation w k r0 m0 ∧ n = k + 2 ∧
      outer = r0.frames ∧ lookUp s r = .ok (some m, first) ∧ m.span.start = m0.span.stop ∧
      (m.kind = .begins o ∧ (∃ data, Opens s o m data) ∧
          spanAt language.caseInsensitive s.text m0.span.stop m0.span.stop opening = some m.span ∨
        m.kind = .ends ∧ isEmptyMode m r.last = false ∧
          (endOf s m r.frames).result = .ok (some 1, r.frames) ∧
          spanAt language.caseInsensitive s.text m0.span.stop m0.span.stop opening = none) := by
  obtain ⟨k, r0, m0, hled, hn, houter, hindex, hlast, hresumes⟩ := hl.between f outer hframes hf
  obtain ⟨m, first, hfound, hstart, hkind⟩ := lookUp_between h hframes hf hresumes
    (hindex ▸ hled.stop_le)
  rw [hindex] at hstart hkind
  refine ⟨k, r0, m0, m, first, hled, hn, houter, hfound, hstart, hkind.imp ?_ ?_⟩
  · rintro ⟨hbegins, hspan⟩
    obtain ⟨data, hdata⟩ := h.hooks m
    refine ⟨hbegins, ⟨data, ?_, hdata⟩, hspan⟩
    rw [h.modes.led.2.2.2, Bool.false_and]
  · rintro ⟨hends, _, hnone⟩
    refine ⟨hends, ?_, ?_, hnone⟩
    · rw [hlast]
      rfl
    · rw [hframes, endOf_cons_of_stops (stops_between h hfound hf)]
      rfl

/-- What follows at each other, wherever a run comes to. -/
theorem linked_reached (hr : Reached s continuation n r) : Linked s.arena (s.stack r.frames) := by
  obtain ⟨name, hc⟩ := h.compiled
  exact linked_of_reached hc (.between rfl h.continued (.inl ⟨n, hr⟩))

/-- **What is further out than the mode between is left as it is** when an end is passed on. -/
theorem suffix_of_asked {count : Option Nat} (hl : lookUp s r = .ok (some m, first))
    (hanswer : (endOf s m r.frames).result = .ok (count, asked)) (hf : f.mode = next)
    (hsuffix : f :: outer <:+ asked) : f :: outer <:+ r.frames := by
  obtain ⟨above', hasked⟩ := hsuffix
  have hmodes := ((meets_endOf s m r.frames).1 _ hanswer).1
  simp only [← hasked, List.map_append, List.map_cons] at hmodes
  obtain ⟨above, rest, hframes, habove, hrest⟩ := List.map_eq_append_iff.mp hmodes.symm
  obtain ⟨f0, outer0, rfl, hf0, _⟩ := List.map_eq_cons_iff.mp hrest
  have hstops := endOf_stops (stops_between h hl (hf0.trans hf)) above outer0
  obtain ⟨⟨above'', hasked', hlength⟩, _⟩ := hstops.1 _ (hframes ▸ hanswer)
  have hlength' : above''.length = above'.length := by
    rw [hlength, ← List.length_map (f := (·.mode)), habove, List.length_map]
  obtain ⟨_, heq⟩ := List.append_inj (hasked'.symm.trans hasked.symm) hlength'
  rw [← heq, hframes]
  exact List.suffix_append above _

omit h in
/-- What has stayed open up to a round and stays open in it has stayed open. -/
theorem inside_succ (hl : Leading s continuation w next n r) (hr' : Reached s continuation (n + 1) r')
    (hf : f.mode = next) (hbefore : f :: outer <:+ r.frames) (hafter : f :: outer <:+ r'.frames) :
    (∃ k r0 m, LedIn s continuation w k r0 m ∧ k + 2 ≤ n + 1 ∧ outer = r0.frames ∧
      Since s continuation (k + 2) (n + 1) (f :: outer)) ∨
    Since s continuation 0 (n + 1) (f :: outer) := by
  rcases hl.inside f outer hbefore hf with ⟨k, r0, m, hled, hk, houter, hsince⟩ | hsince
  · exact .inl ⟨k, r0, m, hled, Nat.le_succ_of_le hk, houter, hsince.succ hr' hafter⟩
  · exact .inr (hsince.succ hr' hafter)

omit h in
/-- A round after which neither a lead-in nor the mode between is the innermost mode, and which opens
    no mode between. -/
theorem leading_of_others (hl : Leading s continuation w next n r)
    (hr' : Reached s continuation (n + 1) r')
    (htop : ∀ f outer, r'.frames = f :: outer → f.mode ≠ w ∧ f.mode ≠ next)
    (hinside : ∀ f outer, f :: outer <:+ r'.frames → f.mode = next → f :: outer <:+ r.frames) :
    Leading s continuation w next (n + 1) r' where
  leadIn := fun f outer hf hmode => absurd hmode (htop f outer hf).1
  between := fun f outer hf hmode => absurd hmode (htop f outer hf).2
  inside := fun f outer hafter hmode =>
    inside_succ hl hr' hmode (hinside f outer hafter hmode) hafter

/-- **A mode opens**: if it is a lead-in, it has just been found, and it is not the mode between. -/
theorem leading_opened (hl : Leading s continuation w next n r) (hr : Reached s continuation n r)
    (hr' : Reached s continuation (n + 1) r') (hfound : lookUp s r = .ok (some m, first)) {id : Nat}
    (hkind : m.kind = .begins id) {data : Grammar.HookData}
    (hopened : Opened s id m data ((r.atRule first).meet s m) r') :
    Leading s continuation w next (n + 1) r' := by
  obtain ⟨name, hc⟩ := h.compiled
  have hframes : r'.frames = ⟨id, data⟩ :: r.frames := hopened.frames
  have hid : id ≠ next := by
    rintro rfl
    exact h.modes.apart _ (mem_contains_of_lookUp hc (inStep_between hc (.inl ⟨n, hr⟩)) hfound hkind)
  have hinside : ∀ f outer, f :: outer <:+ r'.frames → f.mode = next → f :: outer <:+ r.frames := by
    intro f outer hsuffix hmode
    rw [hframes] at hsuffix
    refine (List.suffix_cons_iff.mp hsuffix).resolve_left fun heq => hid ?_
    cases heq
    exact hmode
  by_cases hw : id = w
  · refine ⟨fun f outer hf _ => ?_, fun f outer hf hmode => ?_, fun f outer hafter hmode =>
      inside_succ hl hr' hmode (hinside f outer hafter hmode) hafter⟩
    · rw [hframes] at hf
      cases hf
      subst hw
      have hindex := hopened.index
      rw [h.modes.leads.returnsNothing.1] at hindex
      refine ⟨n, r, m, ⟨hr, ⟨first, hfound⟩, hkind⟩, rfl, rfl, hindex, ?_,
        congrArg Marks.resumes hopened.marks⟩
      rw [← hkind]
      exact congrArg Marks.last hopened.marks
    · rw [hframes] at hf
      cases hf
      exact absurd hmode hid
  · refine leading_of_others hl hr' (fun f outer hf => ?_) hinside
    rw [hframes] at hf
    cases hf
    exact ⟨hw, hid⟩

/-- **A match is passed** in other modes than these: in a lead-in and in the mode between every match
    counts. -/
theorem leading_passed (hl : Leading s continuation w next n r)
    (hr' : Reached s continuation (n + 1) r') (hfound : lookUp s r = .ok (some m, first))
    (hnot : ¬ Counts s m (r.atRule first)) (hpassed : Passed s m (r.atRule first) r') :
    Leading s continuation w next (n + 1) r' := by
  refine leading_of_others hl hr' (fun f outer hf => ?_) fun f outer hsuffix hmode => ?_
  · have hmodes : r'.frames.map (·.mode) = r.frames.map (·.mode) := hpassed.modes
    rw [hf, List.map_cons] at hmodes
    obtain ⟨f0, outer0, hframes, hf0, _⟩ := List.map_eq_cons_iff.mp hmodes.symm
    refine ⟨fun hmode => hnot ?_, fun hmode => hnot ?_⟩
    · obtain ⟨_, _, _, m', _, _, _, _, _, hfound', hends, _, hfull, hcounts⟩ :=
        found_leadIn h hl hframes (hf0.trans hmode)
      cases hfound.symm.trans hfound'
      exact .ends hends hfull hcounts
    · obtain ⟨_, _, _, m', _, _, _, _, hfound', _, hkind⟩ :=
        found_between h hl hframes (hf0.trans hmode)
      cases hfound.symm.trans hfound'
      rcases hkind with ⟨hbegins, ⟨data, hopens⟩, _⟩ | ⟨hends, hfull, hcounts, _⟩
      · exact .begins hbegins hopens
      · exact .ends hends hfull hcounts
  · rcases hpassed.frames with heq | hasked
    · exact heq ▸ hsuffix
    · exact suffix_of_asked h hfound hasked hmode hsuffix

/-- The mode that is left on top when an end closes modes is neither a lead-in nor the mode between. -/
theorem top_of_closed (hr : Reached s continuation n r)
    (hanswer : (endOf s m r.frames).result = .ok (some k, asked)) (hdrop : asked.drop k = f :: outer) :
    f.mode ≠ w ∧ f.mode ≠ next := by
  have hlinked := linked_reached h hr
  rw [← stack_congr ((meets_endOf s m r.frames).1 _ hanswer).1] at hlinked
  obtain ⟨j, rfl⟩ := Nat.exists_eq_succ_of_ne_zero
    (Nat.pos_iff_ne_zero.mp ((pos_endOf s m r.frames).1 _ hanswer k rfl))
  have hj : j < asked.length := by
    have := congrArg List.length hdrop
    simp at this
    omega
  have hasked : asked = asked.take j ++ asked[j] :: f :: outer := by
    rw [← hdrop, List.getElem_cons_drop, List.take_append_drop]
  rw [hasked] at hlinked
  have hfollows := follows_of_linked hlinked
  refine ⟨fun hw => not_follows_leadIn h.modes (hw ▸ hfollows), fun hnext => ?_⟩
  have hled : asked[j].mode = o := eq_led_of_follows h.modes (hnext ▸ hfollows)
  have hlast := (outermost_endOf s m r.frames).1 _ hanswer j asked[j] rfl
    (List.getElem?_eq_getElem hj) (hled ▸ h.modes.led.2.1)
  rw [List.drop_eq_nil_of_le (Nat.le_of_eq hlast)] at hdrop
  cases hdrop

/-- An end that starts the mode between closes a lead-in, and nothing else. -/
theorem closed_of_started (hl : Leading s continuation w next n r) (hr : Reached s continuation n r)
    (hfound : lookUp s r = .ok (some m, first))
    (hanswer : (endOf s m r.frames).result = .ok (some k, asked))
    (hstarted : startedBy s asked k = some next) :
    ∃ f outer, r.frames = f :: outer ∧ f.mode = w ∧ asked = r.frames ∧ k = 1 := by
  obtain ⟨f, hf, hstarts⟩ := Option.bind_eq_some_iff.mp hstarted
  have hmode : f.mode = w := h.modes.startsNext _ hstarts
  have hlinked := linked_reached h hr
  have hmodes := ((meets_endOf s m r.frames).1 _ hanswer).1
  rw [← stack_congr hmodes] at hlinked
  cases hasked : asked with
  | nil => rw [hasked] at hf; cases hf
  | cons f' rest =>
    have hzero : k - 1 = 0 := by
      by_contra hne
      obtain ⟨j, hj⟩ := Nat.exists_eq_succ_of_ne_zero hne
      rw [hj] at hf
      obtain ⟨hlt, hget⟩ := List.getElem?_eq_some_iff.mp hf
      have hsplit : asked = asked.take j ++ asked[j] :: f :: asked.drop (j + 2) := by
        rw [← hget, List.getElem_cons_drop, List.getElem_cons_drop, List.take_append_drop]
      rw [hsplit] at hlinked
      exact not_follows_leadIn h.modes (hmode ▸ follows_of_linked hlinked)
    rw [hzero, hasked] at hf
    cases hf
    rw [hasked, List.map_cons] at hmodes
    obtain ⟨f0, outer, hframes, hf0, _⟩ := List.map_eq_cons_iff.mp hmodes.symm
    obtain ⟨_, _, _, m', _, _, _, _, _, hfound', _, _, _, hcounts⟩ :=
      found_leadIn h hl hframes (hf0.trans hmode)
    cases hfound.symm.trans hfound'
    cases hanswer.symm.trans hcounts
    exact ⟨f0, outer, hframes, hf0.trans hmode, hasked.symm, rfl⟩

/-- **A lead-in ends**, at once, and starts the mode between. -/
theorem leading_started (hl : Leading s continuation w next n r)
    (hr' : Reached s continuation (n + 1) r') (hfound : lookUp s r = .ok (some m, first))
    (hframes : r.frames = f :: outer) (hf : f.mode = w)
    (hclosed : Closed s m 1 r.frames ((r.atRule first).meet s m) r')
    (hstarted : startedBy s r.frames 1 = some next) :
    Leading s continuation w next (n + 1) r' := by
  obtain ⟨k, r0, m0, m', _, hled, rfl, houter, _, hfound', hends, hspan, _⟩ :=
    found_leadIn h hl hframes hf
  cases hfound.symm.trans hfound'
  have hne : next ≠ w := fun heq => h.unstarted w (heq ▸ h.modes.leadsTo.2)
  have hafter : r'.frames = ⟨next, .empty⟩ :: outer := by
    rw [hclosed.frames, hstarted, hframes]
    rfl
  have htop : s.top ((r.atRule first).meet s m) = s.arena.mode w := by
    show s.arena.mode (s.topId r.frames) = _
    rw [hframes, ← hf]
    rfl
  have hindex := hclosed.index
  rw [htop, h.modes.leads.returnsNothing.2, hspan] at hindex
  have hlast : r'.last = some (m.kind, m.span.start) := congrArg Marks.last hclosed.marks
  rw [hends, hspan] at hlast
  refine ⟨fun f outer hf hmode => ?_, fun f outer hf _ => ?_, fun f outer' hsuffix hmode => ?_⟩
  · rw [hafter] at hf
    cases hf
    exact absurd hmode hne
  · rw [hafter] at hf
    cases hf
    exact ⟨k, r0, m0, hled, rfl, houter, hindex, hlast, congrArg Marks.resumes hclosed.marks⟩
  · have hstands := hsuffix
    rw [hafter] at hsuffix
    rcases List.suffix_cons_iff.mp hsuffix with heq | hsuffix
    · cases heq
      exact .inl ⟨k, r0, m0, hled, Nat.le_refl _, houter, since_self hr' hstands⟩
    · refine inside_succ hl hr' hmode ?_ hstands
      rw [hframes]
      exact hsuffix.trans (List.suffix_cons _ outer)

/-- **An end closes modes**: where that starts the mode between, a lead-in has ended at once. -/
theorem leading_closed (hl : Leading s continuation w next n r) (hr : Reached s continuation n r)
    (hr' : Reached s continuation (n + 1) r') (hfound : lookUp s r = .ok (some m, first))
    (hanswer : (endOf s m r.frames).result = .ok (some k, asked))
    (hclosed : Closed s m k asked ((r.atRule first).meet s m) r') :
    Leading s continuation w next (n + 1) r' := by
  have hleft : ∀ f outer, f :: outer <:+ asked.drop k → f.mode = next → f :: outer <:+ r.frames :=
    fun f outer hsuffix hmode => suffix_of_asked h hfound hanswer hmode
      (hsuffix.trans (List.drop_suffix k asked))
  cases hstarted : startedBy s asked k with
  | none =>
    have hframes : r'.frames = asked.drop k := by
      rw [hclosed.frames, hstarted]
      rfl
    rw [← hframes] at hleft
    exact leading_of_others hl hr'
      (fun f outer hf => top_of_closed h hr hanswer (hframes.symm.trans hf)) hleft
  | some id =>
    have hframes : r'.frames = ⟨id, .empty⟩ :: asked.drop k := by
      rw [hclosed.frames, hstarted]
      rfl
    by_cases hnext : id = next
    · subst hnext
      obtain ⟨f, outer, hbefore, hf, rfl, rfl⟩ := closed_of_started h hl hr hfound hanswer hstarted
      exact leading_started h hl hr' hfound hbefore hf hclosed hstarted
    · refine leading_of_others hl hr' (fun f outer hf => ?_) fun f outer hsuffix hmode => ?_
      · rw [hframes] at hf
        cases hf
        refine ⟨?_, hnext⟩
        rintro rfl
        obtain ⟨f, _, hstarts⟩ := Option.bind_eq_some_iff.mp hstarted
        exact h.unstarted _ hstarts
      · rw [hframes] at hsuffix
        refine hleft f outer ((List.suffix_cons_iff.mp hsuffix).resolve_left fun heq => hnext ?_) hmode
        cases heq
        exact hmode

/-- **What is led in is so in every round**, and therefore at every point of a run. -/
theorem leading_reached (hr : Reached s continuation n r) : Leading s continuation w next n r := by
  induction hr with
  | start => exact leading_start h
  | next hr hturn ih =>
    obtain ⟨m, first, hfound, _, _, hsteps⟩ := steps_of_turn hturn
    cases hsteps with
    | opened hkind _ hopened => exact leading_opened h ih hr (.next hr hturn) hfound hkind hopened
    | closed _ _ hanswer hclosed =>
      exact leading_closed h ih hr (.next hr hturn) hfound hanswer hclosed
    | passed hnot hpassed => exact leading_passed h ih (.next hr hturn) hfound hnot hpassed

/-- **What is led in begins only right behind what comes before it**, unless it begins in itself: two
    rounds after that has been found, where it ends, and on the mode between, which stands on what was
    open then. -/
theorem led_in_of_found (hr : Reached s continuation n r) (hl : lookUp s r = .ok (some m, first))
    (hkind : m.kind = .begins o) :
    (s.topId r.frames = o ∧ o ∈ (s.arena.mode o).contains) ∨
      ∃ k r0 m0 f, LedIn s continuation w k r0 m0 ∧ n = k + 2 ∧ m.span.start = m0.span.stop ∧
        r.frames = f :: r0.frames ∧ f.mode = next := by
  obtain ⟨name, hc⟩ := h.compiled
  have hmem := mem_contains_of_lookUp hc (inStep_between hc (.inl ⟨n, hr⟩)) hl hkind
  rcases h.modes.inside _ hmem with htop | htop
  · right
    cases hframes : r.frames with
    | nil =>
      rw [hframes] at htop
      exact absurd htop h.modes.below.2.2.1
    | cons f outer =>
      rw [hframes] at htop
      obtain ⟨k, r0, m0, m', _, hled, hn, rfl, hl', hstart, _⟩ :=
        found_between h (leading_reached h hr) hframes htop
      cases hl.symm.trans hl'
      exact ⟨k, r0, m0, f, hled, hn, hstart, rfl, htop⟩
  · exact .inl ⟨htop, htop ▸ hmem⟩

/-- An end that closes what is led in takes the mode between along, and stops there. -/
theorem endOf_led (hl : lookUp s r = .ok (some m, first)) {led : List Frame}
    (hanswer : (endOf s m r.frames).result = .ok (some k, asked))
    (hframes : r.frames = (above ++ led) ++ f :: outer) (hled : ∀ g ∈ led, g.mode = o)
    (hf : f.mode = next) (hk : above.length < k) :
    asked.drop k = outer ∧ startedBy s asked k = none := by
  have hmodes := ((meets_endOf s m r.frames).1 _ hanswer).1
  obtain ⟨⟨above', hasked, hlength⟩, hle⟩ :=
    (endOf_stops (stops_between h hl hf) (above ++ led) outer).1 _ (hframes ▸ hanswer)
  replace hasked : asked = above' ++ f :: outer := hasked
  replace hle := hle k rfl
  rw [List.length_append] at hlength hle
  have hall : k = above.length + led.length + 1 := by
    by_contra hne
    obtain ⟨j, rfl⟩ : ∃ j, k = above.length + j + 1 := ⟨k - above.length - 1, by omega⟩
    have hj : j < led.length := by omega
    have hget : (asked[above.length + j]?).map (·.mode) = some o := by
      rw [← List.getElem?_map, hmodes, hframes, List.getElem?_map, List.append_assoc,
        List.getElem?_append_right (Nat.le_add_right ..), Nat.add_sub_cancel_left,
        List.getElem?_append_left hj, List.getElem?_eq_getElem hj]
      exact congrArg some (hled _ (List.getElem_mem hj))
    obtain ⟨g, hg, hmode⟩ := Option.map_eq_some_iff.mp hget
    have hlast : asked.length = above.length + j + 1 := (outermost_endOf s m r.frames).1 _ hanswer
      (above.length + j) g rfl hg (hmode ▸ h.modes.led.2.1)
    rw [hasked, List.length_append, hlength, List.length_cons] at hlast
    omega
  rw [hall, hasked]
  refine ⟨?_, ?_⟩
  · rw [List.drop_append, hlength, List.drop_eq_nil_of_le (by omega)]
    simp
  · have hget : (above' ++ f :: outer)[above.length + led.length + 1 - 1]? = some f := by
      rw [List.getElem?_append_right (by omega), hlength]
      simp
    rw [startedBy, hget, Option.bind_some, hf]
    exact h.modes.holds.2

/-- What is led in stands in itself so many times, and then on the mode between. -/
theorem exists_between {below : List Frame} (hlinked : Linked s.arena (s.stack (above ++ f :: below)))
    (hf : f.mode = o) : ∃ inner f' outer, below = inner ++ f' :: outer ∧
      (∀ g ∈ inner, g.mode = o) ∧ f'.mode = next := by
  induction below generalizing above f with
  | nil =>
    rcases next_or_led_of_follows h.modes (hf ▸ follows_root hlinked) with heq | heq
    · exact absurd heq h.modes.below.2.2.1
    · exact absurd heq h.modes.below.2.2.2
  | cons g rest ih =>
    rcases next_or_led_of_follows h.modes (hf ▸ follows_of_linked hlinked) with hg | hg
    · exact ⟨[], g, rest, rfl, by simp, hg⟩
    · have hlinked' : Linked s.arena (s.stack ((above ++ [f]) ++ g :: rest)) := by
        rwa [List.append_assoc, List.singleton_append]
      obtain ⟨inner, f', outer, rfl, hinner, hf'⟩ := ih hlinked' hg
      refine ⟨g :: inner, f', outer, rfl, fun g' hg' => ?_, hf'⟩
      rcases List.mem_cons.mp hg' with rfl | hg'
      · exact hg
      · exact hinner g' hg'

/-- **An end that closes what is led in closes the mode between as well**, and nothing further out. -/
theorem left_of_ended (hended : Ended s continuation n r m k asked r') {below : List Frame}
    (hframes : r.frames = above ++ f :: below) (hf : f.mode = o) (hk : above.length < k) :
    ∃ inner f' outer, below = inner ++ f' :: outer ∧ (∀ g ∈ inner, g.mode = o) ∧ f'.mode = next ∧
      r'.frames = outer := by
  obtain ⟨first, hl⟩ := hended.found
  obtain ⟨_, _, _, hclosed⟩ := hended.closed
  have hlinked := linked_reached h hended.reached
  rw [hframes] at hlinked
  obtain ⟨inner, f', outer, rfl, hinner, hf'⟩ := exists_between h hlinked hf
  refine ⟨inner, f', outer, rfl, hinner, hf', ?_⟩
  have hled : ∀ g ∈ f :: inner, g.mode = o := by
    intro g hg
    rcases List.mem_cons.mp hg with rfl | hg
    · exact hf
    · exact hinner g hg
  obtain ⟨hdrop, hstarted⟩ := endOf_led h hl hended.counts (by
    rw [hframes, List.append_assoc, List.cons_append]) hled hf' hk
  rw [hclosed.frames, hstarted, hdrop]
  rfl

/-- A lead-in that is found begins. -/
theorem opened_of_ledIn {r0 r1 : Run} {m0 : RuleMatch} (hled : LedIn s continuation w k r0 m0)
    (hr : Reached s continuation (k + 1) r1) : ∃ data, r1.frames = ⟨w, data⟩ :: r0.frames := by
  cases hr with
  | next hr hturn =>
    cases reached_unique hr hled.reached
    obtain ⟨first, hl⟩ := hled.found
    obtain ⟨m, first', hl', _, _, hsteps⟩ := steps_of_turn hturn
    cases hl.symm.trans hl'
    cases hsteps with
    | opened hkind _ hopened =>
      cases hled.kind.symm.trans hkind
      exact ⟨_, hopened.frames⟩
    | closed hkind => cases hled.kind.symm.trans hkind
    | passed hnot =>
      have hopens : Opens s w m0 .empty := by
        refine ⟨?_, ?_⟩
        · rw [h.modes.leads.skipAfterDot, Bool.false_and]
        · rw [h.modes.leads.hookless.1]
          rfl
      exact absurd (.begins hled.kind hopens) hnot

omit h in
/-- What is found after some rounds is one match. -/
theorem LedIn.unique {r1 r2 : Run} {m1 m2 : RuleMatch} (h1 : LedIn s continuation w k r1 m1)
    (h2 : LedIn s continuation w k r2 m2) : r1 = r2 ∧ m1 = m2 := by
  cases reached_unique h1.reached h2.reached
  obtain ⟨first1, hl1⟩ := h1.found
  obtain ⟨first2, hl2⟩ := h2.found
  cases hl1.symm.trans hl2
  exact ⟨rfl, rfl⟩

omit h in
/-- The innermost mode, by its frame. -/
theorem top_of_frames (hframes : r.frames = f :: outer) : s.top r = s.arena.mode f.mode := by
  rw [Scene.top, hframes]
  rfl

/-- **A lead-in ends at once** and starts the mode between. -/
theorem started_of_ledIn {r0 r1 : Run} {m0 : RuleMatch} (hled : LedIn s continuation w k r0 m0)
    (hr1 : Reached s continuation (k + 1) r1)
    (hheadway : lacksHeadway s (k + 2) m0.span.stop = false) :
    r1.index = m0.span.stop ∧ ∃ r2 f, Reached s continuation (k + 2) r2 ∧
      r2.frames = f :: r0.frames ∧ f.mode = next ∧ r2.index = m0.span.stop := by
  obtain ⟨data, hframes1⟩ := opened_of_ledIn h hled hr1
  obtain ⟨k1, _, _, m, first, hled1, hk1, _, hindex1, hl, hends, hspan, hfull, hanswer⟩ :=
    found_leadIn h (leading_reached h hr1) hframes1 rfl
  obtain rfl : k = k1 := Nat.succ.inj hk1
  obtain ⟨rfl, rfl⟩ := hled.unique hled1
  refine ⟨hindex1, ?_⟩
  have hsub : (s.top r1).subLanguage = none := by
    rw [top_of_frames hframes1]
    exact h.modes.leads.handsNothing
  have hcounts : Counts s m (r1.atRule first) := .ends hends hfull hanswer
  have hstart : m.span.start = m0.span.stop := congrArg Regex.Span.start hspan
  obtain ⟨notes, r2, hturn⟩ := goes_on_of_counts hsub hl hcounts (hstart ▸ hheadway)
  have hr2 : Reached s continuation (k + 2) r2 := .next hr1 hturn
  have hstarted : startedBy s r1.frames 1 = some next := by
    rw [hframes1]
    exact h.modes.leadsTo.2
  have hframes2 : r2.frames = ⟨next, .empty⟩ :: r0.frames := by
    obtain ⟨m', first', hl', _, _, hsteps⟩ := steps_of_turn hturn
    cases hl.symm.trans hl'
    cases hsteps with
    | opened hkind => cases hends.symm.trans hkind
    | closed _ _ hanswer' hclosed =>
      cases hanswer.symm.trans hanswer'
      rw [hclosed.frames, hstarted, hframes1]
      rfl
    | passed hnot => exact absurd hcounts hnot
  obtain ⟨k2, _, _, hled2, hk2, _, hindex2, _⟩ := (leading_reached h hr2).between _ _ hframes2 rfl
  obtain rfl : k = k2 := by omega
  obtain ⟨rfl, rfl⟩ := hled.unique hled2
  exact ⟨r2, _, hr2, hframes2, rfl, hindex2⟩

/-- **Behind what comes before it, a mode is entered at once**: if the run goes on after that has been
    found, then in the next round the lead-in ends and starts the mode between, and in the round after
    that the mode begins, where it reads something there; else nothing of this is left. Only the guard
    can end the run meanwhile. -/
theorem entered_of_ledIn {r0 r1 : Run} {m0 : RuleMatch} (hled : LedIn s continuation w k r0 m0)
    (hr1 : Reached s continuation (k + 1) r1) :
    lacksHeadway s (k + 3) m0.span.stop = true ∨ ∃ r2 r3 m first f,
      Reached s continuation (k + 2) r2 ∧ Reached s continuation (k + 3) r3 ∧
      r1.index = m0.span.stop ∧ r2.index = m0.span.stop ∧ r2.frames = f :: r0.frames ∧ f.mode = next ∧
      lookUp s r2 = .ok (some m, first) ∧ m.span.start = m0.span.stop ∧
      (m.kind = .begins o ∧
          spanAt language.caseInsensitive s.text m0.span.stop m0.span.stop opening = some m.span ∧
          (∃ data, r3.frames = ⟨o, data⟩ :: r2.frames) ∨
        spanAt language.caseInsensitive s.text m0.span.stop m0.span.stop opening = none ∧
          r3.frames = r0.frames) := by
  cases hheadway : lacksHeadway s (k + 3) m0.span.stop with
  | true => exact .inl rfl
  | false =>
    right
    have hearlier : lacksHeadway s (k + 2) m0.span.stop = false := by
      cases hlacks : lacksHeadway s (k + 2) m0.span.stop with
      | false => rfl
      | true => exact absurd (lacksHeadway_mono hlacks (Nat.le_succ _)) (by simp [hheadway])
    obtain ⟨hindex1, r2, f, hr2, hframes2, hf, hindex2⟩ := started_of_ledIn h hled hr1 hearlier
    obtain ⟨k2, _, _, m, first, hled2, hk2, _, hl, hstart, hkind⟩ :=
      found_between h (leading_reached h hr2) hframes2 hf
    obtain rfl : k = k2 := by omega
    obtain ⟨rfl, rfl⟩ := hled.unique hled2
    have hcounts : Counts s m (r2.atRule first) := by
      rcases hkind with ⟨hbegins, ⟨data, hopens⟩, _⟩ | ⟨hends, hfull, hanswer, _⟩
      · exact .begins hbegins hopens
      · exact .ends hends hfull hanswer
    have hsub : (s.top r2).subLanguage = none := by
      rw [top_of_frames hframes2, hf]
      exact h.modes.between.handsNothing
    rw [← hstart] at hheadway
    obtain ⟨notes, r3, hturn⟩ := goes_on_of_counts hsub hl hcounts hheadway
    refine ⟨r2, r3, m, first, f, hr2, .next hr2 hturn, hindex1, hindex2, hframes2, hf, hl, hstart, ?_⟩
    obtain ⟨m', first', hl', _, _, hsteps⟩ := steps_of_turn hturn
    cases hl.symm.trans hl'
    rcases hkind with ⟨hbegins, _, hspan⟩ | ⟨hends, _, hanswer, hnone⟩
    · left
      refine ⟨hbegins, hspan, ?_⟩
      cases hsteps with
      | opened hkind _ hopened =>
        cases hbegins.symm.trans hkind
        exact ⟨_, hopened.frames⟩
      | closed hkind => cases hbegins.symm.trans hkind
      | passed hnot => exact absurd hcounts hnot
    · right
      refine ⟨hnone, ?_⟩
      cases hsteps with
      | opened hkind => cases hends.symm.trans hkind
      | closed _ _ hanswer' hclosed =>
        cases hanswer.symm.trans hanswer'
        have hstarted : startedBy s r2.frames 1 = none := by
          rw [hframes2]
          show (s.arena.mode f.mode).starts = none
          rw [hf]
          exact h.modes.holds.2
        rw [hclosed.frames, hstarted, hframes2]
        rfl
      | passed hnot => exact absurd hcounts hnot

end Run

end Highlight.Scan
