import Highlight.Proofs.Scan.Ledger
import Highlight.Proofs.Scan.ToldEnds
import Highlight.Proofs.Scan.ToldEvents

/-!
# Text that is handed on whole

A mode without anything inside, whose delimiters stay outside, hands all the text between them on at
once. What is passed over meanwhile, by ends that are turned down or where something is forbidden, is
held back with the rest.

* `HandsWhole` -- such a mode;
* `Entered`, `Inside` -- a run enters it, and is inside;
* `inside_next`, `inside_reached` -- **as long as no end closes it, a run only holds text back**;
* `Handed`, `handed_flush` -- what becomes of the text;
* `handedOn_of_ended`, `handedOn_of_over` -- where it is handed on;
* `Stays`, `Leaves`, `handed_of_entered` -- **the text is handed on whole and once**.
-/

namespace Highlight.Scan

open Highlight.Arena (ArenaMode RuleMatch compileLanguage)
open Highlight.Grammar (HookData HookNote Language SubLanguage)
open Highlight.Token (Event)

variable {s : Scene} {r r' opened : Run} {m : RuleMatch} {continuation : Option (List Nat)}
  {id k n start : Nat} {name : String}

/-! ## 1. Such modes -/

/-- **A mode hands its text on whole** to a language: there is nothing inside it, its delimiters stay
    outside and have no labels, and nothing of it is skipped or read again. -/
structure HandsWhole (mode : ArenaMode) (name : String) : Prop where
  subLanguage : mode.subLanguage = some (.single name)
  contains : mode.contains = []
  skip : mode.skip = false
  excludeBegin : mode.excludeBegin = true
  excludeEnd : mode.excludeEnd = true
  returnBegin : mode.returnBegin = false
  returnEnd : mode.returnEnd = false
  beginScope : mode.beginScope = none
  endScope : mode.endScope = none

instance (mode : ArenaMode) (name : String) : Decidable (HandsWhole mode name) :=
  decidable_of_iff (mode.subLanguage = some (.single name) ∧ mode.contains = [] ∧ mode.skip = false ∧
      mode.excludeBegin = true ∧ mode.excludeEnd = true ∧ mode.returnBegin = false ∧
      mode.returnEnd = false ∧ mode.beginScope = none ∧ mode.endScope = none)
    ⟨fun ⟨h1, h2, h3, h4, h5, h6, h7, h8, h9⟩ => ⟨h1, h2, h3, h4, h5, h6, h7, h8, h9⟩,
      fun ⟨h1, h2, h3, h4, h5, h6, h7, h8, h9⟩ => ⟨h1, h2, h3, h4, h5, h6, h7, h8, h9⟩⟩

/-- **A run enters a mode by the mode's own beginning**, in round `n`. -/
structure Entered (s : Scene) (continuation : Option (List Nat)) (id n : Nat) (r : Run) (m : RuleMatch)
    (opened : Run) : Prop where
  reached : Reached s continuation n r
  found : ∃ first, lookUp s r = .ok (some m, first)
  kind : m.kind = .begins id
  counts : ∃ data, Opens s id m data
  next : ∃ notes, turn s (n + 1) r = .next notes opened

/-- **A run is inside the mode that it has entered**: it has told and counted nothing since, and holds
    all the text back that it has passed. -/
structure Inside (s : Scene) (id : Nat) (outer : List Nat) (opened : Run) (start : Nat) (r : Run) :
    Prop where
  modes : r.frames.map (·.mode) = id :: outer
  account : r.account = opened.account
  from_le : start ≤ r.index
  buffer : r.buffer = s.text.slice start r.index

/-- Whether a run enters a mode in the round behind some others, and the round passes a test. -/
def entersIn (s : Scene) (steps : Nat) (test : Nat → RuleMatch → Run → Bool) : Bool :=
  (afterRounds? s none steps).any fun r =>
    match lookUp s r, turn s (steps + 1) r with
    | .ok (some m, _), .next _ opened => match m.kind with
      | .begins id => opens s id m && test id m opened
      | _ => false
    | _, _ => false

theorem exists_of_entersIn {steps : Nat} {test : Nat → RuleMatch → Run → Bool}
    (h : entersIn s steps test = true) :
    ∃ id r m opened, Entered s none id steps r m opened ∧ test id m opened = true := by
  obtain ⟨r, hr, h⟩ := (Option.any_eq_true _ _).mp h
  split at h
  · rename_i m first notes opened hfound hturn
    split at h
    · rename_i id hkind
      obtain ⟨hopens, htest⟩ := Bool.and_eq_true_iff.mp h
      exact ⟨id, r, m, opened, ⟨reached_of_afterRounds? hr, ⟨first, hfound⟩, hkind,
        (opens_iff id).mp hopens, notes, hturn⟩, htest⟩
    · cases h
  · cases h

variable {outer : List Nat}

theorem topId_of_modes {frames : List Frame} (h : frames.map (·.mode) = id :: outer) :
    s.topId frames = id := by
  obtain ⟨f, rest, rfl, hf, _⟩ := List.map_eq_cons_iff.mp h
  exact hf

theorem Inside.top (h : Inside s id outer opened start r) : s.top r = s.arena.mode id :=
  congrArg s.arena.mode (topId_of_modes h.modes)

theorem book_of_account (h : r'.account = r.account) : r'.book = r.book := by
  obtain ⟨hevents, hrelevance, hhits, hblocks⟩ := Account.mk.inj h
  simp only [Run.book, Run.nested, hevents, hrelevance, hhits, hblocks]

/-! ## 2. The mode is entered -/

theorem buffer_holdBegin {mode : ArenaMode} (hskip : mode.skip = false)
    (hexclude : mode.excludeBegin = true) (text : String) (r : Run) :
    (holdBegin s mode text r).Meets (fun r' => r'.buffer = "") fun _ => True := by
  refine meets_holdBegin (fun h => ?_) (fun _ => flushed_flush s _) fun _ r1 hr1 => ?_
  · cases hskip.symm.trans h
  · rw [hexclude, Bool.or_true]
    exact hr1.buffer

theorem buffer_startMode (hscope : (s.arena.mode id).beginScope = none) (m : RuleMatch)
    (data : HookData) (r : Run) : (startMode s id m data r).buffer = r.buffer := by
  unfold startMode
  simp only [hscope]
  exact (told_openMode r s.arena (s.arena.mode id)).2

/-- A mode whose beginning stays outside begins with nothing held back. -/
theorem buffer_beginStep (hmode : HandsWhole (s.arena.mode id) name) (m : RuleMatch) (r : Run)
    (hcounts : ∃ data, Opens s id m data) :
    (beginStep s id m r).Meets (fun r' => r'.buffer = "") fun _ => True := by
  refine meets_beginStep (fun hnot => absurd hcounts hnot) (fun _ _ => trivial)
    (fun _ => buffer_holdBegin hmode.skip hmode.excludeBegin (lexeme s m) r) fun data r1 _ hr1 => ?_
  exact (buffer_startMode hmode.beginScope m data r1).trans hr1

theorem not_isEmptyMode_of_begins (hkind : m.kind = .begins id)
    (last : Option (Arena.RuleKind × Nat)) : isEmptyMode m last = false := by
  unfold isEmptyMode
  rw [hkind]
  split <;> rfl

/-- **Right behind its beginning a run is inside the mode.** -/
theorem inside_opened (he : Entered s continuation id n r m opened)
    (hmode : HandsWhole (s.arena.mode id) name) :
    Inside s id (r.frames.map (·.mode)) opened m.span.stop opened := by
  obtain ⟨notes, hturn⟩ := he.next
  obtain ⟨first, hl⟩ := he.found
  obtain ⟨m', first', hl', hstep, _⟩ := turn_next hturn
  cases hl.symm.trans hl'
  have hbegin : beginStep s id m ((r.atRule first).meet s m) = ⟨notes, .ok opened⟩ := by
    rw [← hstep, step_of_not_empty (not_isEmptyMode_of_begins he.kind _), act, he.kind]
  have hbuffer : opened.buffer = "" :=
    (buffer_beginStep hmode m _ he.counts).1 opened (by rw [hbegin])
  rcases (opened_beginStep s id m ((r.atRule first).meet s m)).1 opened (by rw [hbegin]) with
    ⟨data, _, hopened⟩ | ⟨hnot, _⟩
  · have hindex : opened.index = m.span.stop := by rw [hopened.index, hmode.returnBegin]; rfl
    refine ⟨?_, rfl, Nat.le_of_eq hindex.symm, ?_⟩
    · rw [hopened.frames]
      rfl
    · rw [hbuffer, hindex, Text.slice_self]
  · exact absurd he.counts hnot

/-! ## 3. Inside the mode -/

theorem Inside.passed {first : Nat} (h : Inside s id outer opened start r)
    (hi : r.index ≤ m.span.start) (hpassed : Passed s m (r.atRule first) r') :
    Inside s id outer opened start r' := by
  have hle : r.index ≤ r'.index := Nat.le_trans hi hpassed.index
  refine ⟨hpassed.modes.trans h.modes, hpassed.account.trans h.account, Nat.le_trans h.from_le hle, ?_⟩
  rw [hpassed.buffer]
  show r.buffer ++ s.text.slice r.index r'.index = _
  rw [h.buffer, Text.slice_append _ h.from_le hle]

section Compiled

variable {code : String} {language : Language} (hc : compileLanguage code language = .ok s.arena)
  (hmode : HandsWhole (s.arena.mode id) name)

include hc hmode

/-- Nothing begins inside the mode. -/
theorem not_begins_of_inside (hin : Inside s id outer opened start r)
    (hr : Reached s continuation n r) {first inner : Nat} (hl : lookUp s r = .ok (some m, first)) :
    m.kind ≠ .begins inner := by
  intro hkind
  have hmem := mem_contains_of_lookUp hc (inStep_between hc (.inl ⟨n, hr⟩)) hl hkind
  rw [hin.top, hmode.contains] at hmem
  cases hmem

/-- **A round inside the mode passes on, unless an end closes the mode.** -/
theorem inside_next {notes : List HookNote} (hin : Inside s id outer opened start r)
    (hr : Reached s continuation n r) (hturn : turn s (n + 1) r = .next notes r') :
    Inside s id outer opened start r' ∨ ∃ m k asked, Ended s continuation n r m k asked r' := by
  obtain ⟨m, first, hl, hi, _, hsteps⟩ := steps_of_turn hturn
  cases hsteps with
  | opened hkind => exact absurd hkind (not_begins_of_inside hc hmode hin hr hl)
  | closed hkind hfull hanswer _ =>
    exact .inr ⟨m, _, _, hr, ⟨first, hl⟩, hkind, hfull, hanswer, notes, hturn⟩
  | passed _ hpassed => exact .inl (hin.passed hi hpassed)

/-- **After every round behind the beginning a run is inside the mode, unless an end has closed it.** -/
theorem inside_reached (he : Entered s continuation id n r m opened)
    (hr' : Reached s continuation k r') (hk : n < k) :
    (∀ i ri, n < i → i ≤ k → Reached s continuation i ri →
      Inside s id (r.frames.map (·.mode)) opened m.span.stop ri) ∨
    ∃ i last m' count asked next, n < i ∧ i < k ∧ Ended s continuation i last m' count asked next ∧
      ∀ j rj, n < j → j ≤ i → Reached s continuation j rj →
        Inside s id (r.frames.map (·.mode)) opened m.span.stop rj := by
  induction hr' with
  | start => exact absurd hk (Nat.not_lt_zero n)
  | @next k r0 r' notes hr0 hturn ih =>
    rcases Nat.lt_succ_iff_lt_or_eq.mp hk with hlt | rfl
    · rcases ih hlt with hall | ⟨i, last, m', count, asked, next, hi, hik, hrest⟩
      · rcases inside_next hc hmode (hall k r0 hlt (Nat.le_refl k) hr0) hr0 hturn with
          hin | ⟨m', count, asked, hended⟩
        · refine .inl fun i ri hi hik hri => ?_
          rcases Nat.lt_or_eq_of_le hik with hik | rfl
          · exact hall i ri hi (Nat.le_of_lt_succ hik) hri
          · cases reached_unique hri (.next hr0 hturn)
            exact hin
        · exact .inr ⟨k, r0, m', count, asked, r', hlt, Nat.lt_succ_self k, hended, hall⟩
      · exact .inr ⟨i, last, m', count, asked, next, hi, Nat.lt_succ_of_lt hik, hrest⟩
    · refine .inl fun i ri hi hik hri => ?_
      obtain rfl : i = n + 1 := by omega
      cases reached_unique hr0 he.reached
      obtain ⟨notes', hturn'⟩ := he.next
      cases hturn.symm.trans hturn'
      cases reached_unique hri (.next hr0 hturn)
      exact inside_opened he hmode

end Compiled

/-! ## 4. The text is handed on -/

/-- **What becomes of a text that is handed on** to a language: its deeds, and the events that tell it.
    Nothing becomes of no text. -/
inductive Handed (s : Scene) (id : Nat) (name text : String) (resumed : Option (List Nat)) :
    List Deed → List Event → Prop
  | nothing : text = "" → Handed s id name text resumed [] []
  | block {x : Attempt Nested} {answer : Nested} : text ≠ "" →
      s.delegate.single name text resumed = some x → x.result = .ok answer →
      Handed s id name text resumed [.hands ⟨id, .single name, text, resumed, answer⟩]
        [.nested answer.language answer.events]

/-- The delegate knows the language with a name. -/
def Delegate.Knows (d : Delegate) (name : String) : Prop :=
  ∀ text resumed, (d.single name text resumed).isSome = true

/-- **What a mode holds back that hands it on.** -/
theorem handed_flush (hknows : s.delegate.Knows name) (htop : s.topId r.frames = id)
    (hsub : (s.arena.mode id).subLanguage = some (.single name)) :
    (flush s r).Meets (fun r' => ∃ told,
      Handed s id name r.buffer (r.blocks.get? name) (flushDeeds s r) told ∧
        r'.events = told.reverse ++ r.events) fun _ => True := by
  subst htop
  have htold : s.top { r with buffer := "" } = s.arena.mode (s.topId r.frames) := rfl
  unfold flush flushDeeds
  simp only
  rw [htold, show (s.top r).subLanguage = _ from hsub, hsub]
  simp only
  unfold tellBlock
  split
  · rename_i hempty
    have hnone : blockOf s r (.single name) r.buffer = none := if_pos hempty
    rw [hnone]
    exact Attempt.meets_pure ⟨[], .nothing (by simpa using hempty), rfl⟩
  · rename_i hfull
    have hne : r.buffer ≠ "" := by simpa using hfull
    obtain ⟨x, hask⟩ := Option.isSome_iff_exists.mp (hknows r.buffer (r.blocks.get? name))
    have hask' : s.delegate.ask (.single name) r.buffer (r.resumption (.single name)) = some x := hask
    simp only [hask]
    refine Attempt.meets_bind (Attempt.meets_result x) fun answer hx => Attempt.meets_pure ?_
    rw [blockOf_of_ok hne hask' hx]
    exact ⟨_, .block hne hask hx, rfl⟩

/-- **How a run leaves the mode**, in which state and where its text ends, and with which deeds the run
    goes on: in round `k` an end closes the mode first of all, or the run is over. -/
inductive Leaves (s : Scene) (continuation : Option (List Nat)) (id k : Nat) (last : Run) :
    Nat → List Deed → Prop
  | closed {m : RuleMatch} {count : Nat} {asked : List Frame} {next : Run} {more : List Deed} :
      Ended s continuation k last m count asked next →
      Leaves s continuation id k last m.span.start (.closes id :: more)
  | finished {notes : List HookNote} {r : Run} : turn s (k + 1) last = .last notes r →
      Leaves s continuation id k last s.text.size []

/-- **A run has been inside a mode**, from the round in which it has entered it up to round `k`: it has
    told nothing meanwhile, and its relevance is as before. -/
structure Stays (s : Scene) (continuation : Option (List Nat)) (id n : Nat) (opened : Run) (k : Nat)
    (last : Run) : Prop where
  later : n < k
  reached : Reached s continuation k last
  still : ∀ i r, n < i → i ≤ k → Reached s continuation i r →
    s.topId r.frames = id ∧ r.events = opened.events ∧ r.relevance = opened.relevance

/-- A run that is in another mode one round after it has entered this one has left it there. -/
theorem stop_of_left {last : Run} {stop first : Nat} {after : List Deed} {m' : RuleMatch}
    (hopened : Reached s continuation (n + 1) opened)
    (hstays : Stays s continuation id n opened k last)
    (hleaves : Leaves s continuation id k last stop after)
    (hl : lookUp s opened = .ok (some m', first)) (hr' : Reached s continuation (n + 2) r')
    (htop : s.topId r'.frames ≠ id) : stop = m'.span.start := by
  obtain rfl : k = n + 1 := by
    have hlater := hstays.later
    by_contra hk
    exact htop (hstays.still (n + 2) r' (by omega) (by omega) hr').1
  cases reached_unique hopened hstays.reached
  cases hleaves with
  | closed hended =>
    obtain ⟨_, hl'⟩ := hended.found
    cases hl.symm.trans hl'
    rfl
  | finished hturn =>
    obtain ⟨_, _, _, hr, hturn'⟩ := exists_reached hr' (Nat.lt_succ_self (n + 1))
    cases reached_unique hopened hr
    cases hturn.symm.trans hturn'

theorem Inside.still (h : Inside s id outer opened start r) :
    s.topId r.frames = id ∧ r.events = opened.events ∧ r.relevance = opened.relevance :=
  ⟨topId_of_modes h.modes, congrArg Account.events h.account, congrArg Account.relevance h.account⟩

/-- **All that becomes of the text of a mode that hands it on**, up to index `stop`: its deeds come right
    behind those that the run has been worth when it entered the mode, and its events right behind those
    that it had told. -/
def HandedOn (s : Scene) (continuation : Option (List Nat)) (id : Nat) (name : String)
    (opened : Run) (start stop : Nat) (after : List Deed) : Prop :=
  ∃ before handed told more,
    Handed s id name (s.text.slice start stop) (lastTop name before) handed told ∧
    runDeeds s continuation = before ++ handed ++ after ∧ Tallied s before opened ∧
    (scanAll s continuation).events = opened.events.reverse ++ told ++ more

/-- The state in which an end that closes modes is handled, once the modes have been asked. -/
def Run.answered (s : Scene) (m : RuleMatch) (first : Nat) (asked : List Frame) (r : Run) : Run :=
  { (r.atRule first).meet s m with frames := asked }

/-- The end of such a mode is held back behind its text. -/
theorem told_holdEnd {mode : ArenaMode} (hmode : HandsWhole mode name) (m : RuleMatch) (r : Run) :
    (holdEnd s mode m r).Meets
      (fun r' => ∃ r1, (flush s r).result = .ok r1 ∧ r'.events = r1.events) fun _ => True := by
  unfold holdEnd
  rw [hmode.endScope, hmode.skip, hmode.excludeEnd, Bool.or_true]
  exact Attempt.meets_bind (Attempt.meets_result _) fun r1 hr1 => Attempt.meets_pure ⟨r1, hr1, rfl⟩

section Compiled

variable {code : String} {language : Language} (hc : compileLanguage code language = .ok s.arena)
  (hmode : HandsWhole (s.arena.mode id) name)

include hmode

/-- An end that closes the mode tells its text first. -/
theorem suffix_endStep {count first : Nat} {asked : List Frame}
    (hanswer : (endOf s m r.frames).result = .ok (some count, asked))
    (htop : s.topId asked = id) :
    (endStep s m ((r.atRule first).meet s m)).Meets (fun r' => ∃ r1,
      (flush s (r.answered s m first asked)).result = .ok r1 ∧ r1.events <:+ r'.events)
      fun _ => True := by
  have hwhole : HandsWhole (s.top (r.answered s m first asked)) name := by
    rwa [show s.top (r.answered s m first asked) = _ from congrArg s.arena.mode htop]
  have hclosed : ∀ n (r1 r2 : Run), r2.events = r1.events →
      r1.events <:+ (closeFrames s.arena n none r2).2.events := fun n r1 r2 hevents =>
    hevents ▸ lasting_closeFrames (lasting_suffix s r2.events) n none (List.suffix_refl r2.events)
  refine meets_endStep (H := fun _ _ r2 => ∃ r1,
      (flush s (r.answered s m first asked)).result = .ok r1 ∧ r2.events = r1.events)
    (Attempt.meets_result _) (fun _ ha => by cases hanswer.symm.trans ha) (fun n frames ha => ?_)
    (fun n _ r2 _ hr2 _ => ?_) fun n _ r2 next _ hr2 _ => ?_
  · cases hanswer.symm.trans ha
    exact told_holdEnd hwhole m (r.answered s m first asked)
  · obtain ⟨r1, hr1, hevents⟩ := hr2
    exact ⟨r1, hr1, hclosed n r1 r2 hevents⟩
  · obtain ⟨r1, hr1, hevents⟩ := hr2
    exact ⟨r1, hr1, lasting_startMode (lasting_suffix s r1.events) (hclosed n r1 r2 hevents) _ .empty⟩

omit hmode in
/-- A round in which an end closes modes handles just that end. -/
theorem endStep_of_ended {count first : Nat} {asked : List Frame} {last next : Run}
    (hended : Ended s continuation k last m count asked next) (hl : lookUp s last = .ok (some m, first)) :
    ∃ notes, endStep s m ((last.atRule first).meet s m) = ⟨notes, .ok next⟩ := by
  obtain ⟨notes, hturn⟩ := hended.next
  obtain ⟨m', first', hl', hstep, _⟩ := turn_next hturn
  cases hl.symm.trans hl'
  have hfull : isEmptyMode m (last.atRule first).last = false := hended.full
  refine ⟨notes, ?_⟩
  rw [← hstep, step_of_not_empty hfull, act, hended.kind]

/-- The deeds of a round in which an end closes the mode. -/
theorem roundDeeds_of_ended {count first : Nat} {asked : List Frame} {last next : Run}
    (hended : Ended s continuation k last m count asked next)
    (hmodes : asked.map (·.mode) = id :: outer) (hl : lookUp s last = .ok (some m, first)) :
    ∃ more, roundDeeds s last =
      flushDeeds s (last.answered s m first asked) ++ .closes id :: more := by
  have hpos := (pos_endOf s m last.frames).1 _ hended.counts count rfl
  have hanswer : (endOf s m ((last.atRule first).meet s m).frames).result = .ok (some count, asked) :=
    hended.counts
  have htop : s.top (last.answered s m first asked) = s.arena.mode id :=
    congrArg s.arena.mode (topId_of_modes hmodes)
  have hfull : isEmptyMode m (last.atRule first).last = false := hended.full
  have hhold : holdEndDeeds s (s.arena.mode id) m (last.answered s m first asked) =
      flushDeeds s (last.answered s m first asked) := by
    rw [holdEndDeeds, hmode.endScope, hmode.skip, hmode.excludeEnd, Bool.or_true]
    rfl
  have hround : roundDeeds s last = endDeeds s m count (last.answered s m first asked) := by
    rw [roundDeeds, hl]
    simp only [stepDeeds, hfull, Bool.false_eq_true, if_false, actDeeds, hended.kind, hanswer]
    rfl
  rw [hround, endDeeds, htop, hhold]
  obtain ⟨f, rest, rfl, rfl, _⟩ := List.map_eq_cons_iff.mp hmodes
  obtain ⟨j, rfl⟩ : ∃ j, count = j + 1 := ⟨count - 1, by omega⟩
  exact ⟨_, by rw [List.append_assoc]; rfl⟩

/-- **The text is handed on where an end closes the mode.** -/
theorem handedOn_of_ended (hknows : s.delegate.Knows name) {count : Nat} {asked : List Frame}
    {last next : Run} (hended : Ended s continuation k last m count asked next)
    (hin : Inside s id outer opened start last) :
    start ≤ m.span.start ∧ m.span.start ≤ s.text.size ∧
      ∃ more, HandedOn s continuation id name opened start m.span.start (.closes id :: more) := by
  obtain ⟨first, hl⟩ := hended.found
  obtain ⟨notes, hturn⟩ := hended.next
  have hfinds := Arena.finds_next hl
  have hfrom : last.index ≤ m.span.start := hfinds.from_le
  refine ⟨Nat.le_trans hin.from_le hfrom, Nat.le_trans hfinds.ordered hfinds.stop_le, ?_⟩
  obtain ⟨_, hend⟩ := endStep_of_ended hended hl
  have hasked : asked.map (·.mode) = id :: outer :=
    ((meets_endOf s m last.frames).1 _ hended.counts).1.trans hin.modes
  have htop : s.topId asked = id := topId_of_modes hasked
  obtain ⟨more, hround⟩ := roundDeeds_of_ended hmode hended hasked hl
  obtain ⟨r1, hr1, closers, hclosers⟩ :=
    (suffix_endStep hmode hended.counts htop).1 next (by rw [hend])
  obtain ⟨told, hhanded, hevents⟩ :=
    (handed_flush (r := last.answered s m first asked) hknows htop hmode.subLanguage).1 r1 hr1
  obtain ⟨before, htallied, hrun⟩ := tallied_reached hended.reached
  obtain ⟨rest, hrest⟩ := suffix_scanAll (.next hended.reached hturn)
  refine ⟨more ++ deedsFrom s (maxSteps s - (k + 1)) (k + 1) next, before,
    flushDeeds s (last.answered s m first asked), told, closers.reverse ++ rest, ?_, ?_, ?_, ?_⟩
  · have hbuffer : (last.answered s m first asked).buffer = s.text.slice start m.span.start := by
      show last.buffer ++ s.text.slice last.index m.span.start = _
      rw [hin.buffer, Text.slice_append _ hin.from_le hfrom]
    have hresumed : (last.answered s m first asked).blocks.get? name = lastTop name before :=
      htallied.last name
    rwa [hbuffer, hresumed] at hhanded
  · rw [hrun, fuel_of_reached hended.reached, deedsFrom, hturn]
    simp only
    rw [hround, List.append_assoc, List.append_assoc]
    rfl
  · exact htallied.congr (book_of_account hin.account.symm)
  · have hopened : (last.answered s m first asked).events = opened.events :=
      congrArg Account.events hin.account
    rw [← hrest, ← hclosers, hevents, hopened]
    simp

include hc

/-- A last round inside the mode passes on. -/
theorem inside_last {notes : List HookNote} (hin : Inside s id outer opened start r)
    (hr : Reached s continuation n r) (hturn : turn s (n + 1) r = .last notes r') :
    Inside s id outer opened start r' := by
  rcases turn_last hturn with ⟨first, hl, _, rfl⟩ | ⟨m, first, hl, hstep, hindex⟩
  · exact ⟨hin.modes, hin.account, hin.from_le, hin.buffer⟩
  · have hfinds := Arena.finds_next hl
    have hsteps := (steps_step (r := r.atRule first) hfinds.from_le hfinds.ordered).1 r'
      (by rw [hstep])
    cases hsteps with
    | opened hkind => exact absurd hkind (not_begins_of_inside hc hmode hin hr hl)
    | @closed count asked _ _ _ hclosed =>
      -- An end that closes modes does not lead behind the text.
      have hstop := hclosed.index
      have := hfinds.ordered
      have := hfinds.stop_le
      split at hstop <;> omega
    | passed _ hpassed => exact hin.passed hfinds.from_le hpassed

omit hc hmode in
/-- A run that is completed has told what was left of the text. -/
theorem told_of_last {last : Run} {notes : List HookNote} (hr : Reached s continuation k last)
    (hturn : turn s (k + 1) last = .last notes r) (hdone : (scanAll s continuation).fault = none) :
    ∃ r2, (flush s (r.hold (s.text.slice r.index s.text.size))).result = .ok r2 ∧
      (scanAll s continuation).events = r2.events.reverse ++ [.finish] := by
  obtain ⟨more, hscan⟩ := scanAll_of_last hr hturn
  rw [hscan] at hdone ⊢
  unfold complete at hdone ⊢
  simp only at hdone ⊢
  split at hdone
  · rename_i more r2 hr2
    exact ⟨r2, by rw [hr2], List.reverse_cons⟩
  · cases hdone

/-- **The text is handed on where the run is over.** -/
theorem handedOn_of_over (hknows : s.delegate.Knows name) {last : Run} {notes : List HookNote}
    (hr : Reached s continuation k last) (hin : Inside s id outer opened start last)
    (hturn : turn s (k + 1) last = .last notes r)
    (hdone : (scanAll s continuation).fault = none) :
    HandedOn s continuation id name opened start s.text.size [] := by
  have hlast := inside_last hc hmode hin hr hturn
  obtain ⟨before, htallied, hrun⟩ := runDeeds_of_last hr hturn
  have hbuffer : (r.hold (s.text.slice r.index s.text.size)).buffer =
      s.text.slice start s.text.size := by
    show r.buffer ++ s.text.slice r.index s.text.size = _
    rw [hlast.buffer]
    rcases Nat.le_total r.index s.text.size with hle | hle
    · exact Text.slice_append _ hlast.from_le hle
    · rw [Text.slice_to_size _ _ hle, Text.slice_of_size_le _ hle, String.append_empty]
  have hflush := handed_flush (r := r.hold (s.text.slice r.index s.text.size)) hknows
    (topId_of_modes hlast.modes) hmode.subLanguage
  rw [hbuffer, htallied.last name] at hflush
  have hbefore : Tallied s before opened := htallied.congr (book_of_account hlast.account.symm)
  obtain ⟨r2, hr2, hends⟩ := told_of_last hr hturn hdone
  obtain ⟨told, hhanded, hevents⟩ := hflush.1 r2 hr2
  have hopened : (r.hold (s.text.slice r.index s.text.size)).events = opened.events :=
    congrArg Account.events hlast.account
  refine ⟨before, _, told, [.finish], hhanded, ?_, hbefore, ?_⟩
  · rw [hrun, List.append_nil]
  · rw [hends, hevents, hopened]
    simp

/-- **The text of a mode that hands it on whole is handed on whole and once.** A run that enters the
    mode stays inside it, and tells nothing, until an end closes it or the run is over. Then the text
    behind the beginning is handed on, all of it, as one block; or there is none. -/
theorem handed_of_entered (hknows : s.delegate.Knows name)
    (he : Entered s continuation id n r m opened) (hdone : (scanAll s continuation).fault = none) :
    ∃ k last stop after, Stays s continuation id n opened k last ∧
      Leaves s continuation id k last stop after ∧ m.span.stop ≤ stop ∧ stop ≤ s.text.size ∧
      HandedOn s continuation id name opened m.span.stop stop after := by
  obtain ⟨first, hl⟩ := he.found
  have hstart : m.span.stop ≤ s.text.size := (Arena.finds_next hl).stop_le
  obtain ⟨notes, hnext⟩ := he.next
  have hopened : Reached s continuation (n + 1) opened := .next he.reached hnext
  have hends := ends_scanAll s continuation
  generalize hscanned : scanAll s continuation = scanned at hends
  cases hends with
  | broken notes hr' hturn' =>
    rw [hscanned] at hdone
    cases hdone
  | @completed j r0 r1 more notes' hr' hturn' =>
    have hlater : n < j := le_of_over hopened hr' fun notes r3 hnext => by
      cases hturn'.symm.trans hnext
    rcases inside_reached hc hmode he hr' hlater with
      hall | ⟨k, last, m', count, asked, next, hk, _, hended, hall⟩
    · have hin := hall j r0 hlater (Nat.le_refl j) hr'
      exact ⟨j, r0, _, _, ⟨hlater, hr', fun i ri hi hij hri => (hall i ri hi hij hri).still⟩,
        .finished hturn', hstart, Nat.le_refl _,
        handedOn_of_over hc hmode hknows hr' hin hturn' hdone⟩
    · have hin := hall k last hk (Nat.le_refl k) hended.reached
      obtain ⟨hfrom, hto, more, hhanded⟩ := handedOn_of_ended hmode hknows hended hin
      exact ⟨k, last, _, _, ⟨hk, hended.reached, fun i ri hi hik hri => (hall i ri hi hik hri).still⟩,
        .closed hended, hfrom, hto, hhanded⟩

end Compiled

end Highlight.Scan
