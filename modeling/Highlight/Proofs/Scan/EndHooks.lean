import Highlight.Grammar.Fragment
import Highlight.Proofs.Scan.OpenEnds

/-!
# Hooks at the end of modes

What a hook at the end of a mode is told are the groups of the end of this mode, whichever mode the
end was found in. So a mode that ends only where its end repeats its beginning is closed by its own
end just there: what its hook keeps is what the first group of its beginning has read, all the time
that the mode is open.

* `EndsAsBegun` -- a mode that ends only where its end repeats its beginning;
* `KeepsBegin`, `AllKeep` -- what its hook keeps;
* `allKeep_step`, `allKeep_reached` -- it keeps it in every step, and so at every point of a run;
* `hooks_see_own_groups` -- **a hook at the end of a mode sees the groups of the own end**;
* `group_inside_hides_own` -- a group of an end inside is taken for it.
-/

namespace Highlight.Scan

open Highlight.Arena (ArenaMode RuleMatch compileLanguage)
open Highlight.Grammar (Fragment.beginKey Fragment.checkBegin Fragment.endSameAsBegin
  Fragment.keepBegin HookData Language MatchView Mode)

variable {s : Scene} {r r' : Run} {m : RuleMatch} {name : String} {language : Language}
  {continuation : Option (List Nat)} {n first : Nat} {f : Frame} {frames : List Frame} {mode : ArenaMode}

/-! ## 1. What hooks keep -/

/-- A match as a hook sees it. -/
def viewOf (s : Scene) (m : RuleMatch) : MatchView := ⟨s.text, m.span.start, m.groups⟩

/-- **A mode ends only where the first group of its end reads what that of its beginning has read.** -/
structure EndsAsBegun (mode : ArenaMode) : Prop where
  onBegin : mode.onBegin = some Fragment.keepBegin
  onEnd : mode.onEnd = some Fragment.checkBegin

/-- **What the hook of an open mode keeps**: nothing, if the mode was not opened by its beginning; or
    what the first group of the match has read that has opened it. `outer` are the modes around it. -/
inductive KeepsBegin (s : Scene) (continuation : Option (List Nat)) (outer : List Nat) (f : Frame) :
    Prop
  | started : f.data = .empty → KeepsBegin s continuation outer f
  | opened {n first : Nat} {r : Run} {m : RuleMatch} : Reached s continuation n r →
      lookUp s r = .ok (some m, first) → m.kind = .begins f.mode → r.frames.map (·.mode) = outer →
      f.data.get? Fragment.beginKey = (viewOf s m).group? 1 → KeepsBegin s continuation outer f

/-- All open modes that end only as they have begun keep their beginnings. -/
def AllKeep (s : Scene) (continuation : Option (List Nat)) : List Frame → Prop
  | [] => True
  | f :: outer => (EndsAsBegun (s.arena.mode f.mode) →
      KeepsBegin s continuation (outer.map (·.mode)) f) ∧ AllKeep s continuation outer

theorem allKeep_append {above : List Frame} (h : AllKeep s continuation (above ++ frames)) :
    AllKeep s continuation frames := by
  induction above with
  | nil => exact h
  | cons g above ih => exact ih h.2

/-- Where a mode begins its hook keeps what the first group has read. -/
theorem data_of_keepBegin {data : HookData}
    (h : (askHook s Fragment.keepBegin m .empty).result = .ok (true, data)) :
    data.get? Fragment.beginKey = (viewOf s m).group? 1 := by
  unfold viewOf
  unfold askHook Fragment.keepBegin at h
  cases hgroup : (MatchView.mk s.text m.span.start m.groups).group? 1 with
  | none =>
    simp only [hgroup] at h
    cases h
    rfl
  | some text =>
    simp only [hgroup] at h
    cases h
    rw [Dictionary.get?_insert, if_pos rfl]

/-- At the end of a mode its hook compares what it keeps with what the first group has read, and keeps
    it. -/
theorem askHook_checkBegin (s : Scene) (m : RuleMatch) (data : HookData) :
    askHook s Fragment.checkBegin m data =
      pure (data.get? Fragment.beginKey == (viewOf s m).group? 1, data) := by
  unfold askHook Fragment.checkBegin viewOf
  cases hsame : (data.get? Fragment.beginKey ==
    (MatchView.mk s.text m.span.start m.groups).group? 1) <;> simp only [hsame] <;> rfl

theorem askEnd_kept (hmode : EndsAsBegun mode) (s : Scene) (m : RuleMatch) (data : HookData) :
    (askEnd s mode m data).Meets (fun reply => reply.2 = data) fun _ => True := by
  unfold askEnd
  split
  · rw [hmode.onEnd]
    show (askHook s Fragment.checkBegin m data).Meets _ _
    rw [askHook_checkBegin]
    exact Attempt.meets_pure rfl
  · exact Attempt.meets_pure rfl

/-! ## 2. Steps -/

/-- An end leaves what the hooks keep of the beginnings. -/
theorem allKeep_endOf (h : AllKeep s continuation frames) (m : RuleMatch) :
    (endOf s m frames).Meets (fun answer => AllKeep s continuation answer.2 ∧
      answer.2.map (·.mode) = frames.map (·.mode)) fun _ => True := by
  induction frames with
  | nil => exact Attempt.meets_pure ⟨trivial, rfl⟩
  | cons f rest ih =>
    have hasked : (askEnd s (s.arena.mode f.mode) m f.data).Meets
        (fun reply => EndsAsBegun (s.arena.mode f.mode) → reply.2 = f.data) fun _ => True := by
      by_cases hmode : EndsAsBegun (s.arena.mode f.mode)
      · exact Attempt.meets_mono (askEnd_kept hmode s m f.data) (fun _ hreply _ => hreply)
          fun _ _ => trivial
      · exact Attempt.meets_mono (Attempt.meets_any _) (fun _ _ h => absurd h hmode)
          fun _ _ => trivial
    unfold endOf
    refine Attempt.meets_bind hasked fun reply hreply => ?_
    obtain ⟨counts, data⟩ := reply
    have hfirst : ∀ {outer : List Frame}, outer.map (·.mode) = rest.map (·.mode) →
        EndsAsBegun (s.arena.mode f.mode) →
        KeepsBegin s continuation (outer.map (·.mode)) { f with data } := by
      intro outer houter hmode
      rw [show data = f.data from hreply hmode, houter]
      exact h.1 hmode
    simp only
    split
    · exact Attempt.meets_pure ⟨⟨hfirst rfl, h.2⟩, rfl⟩
    · split
      · refine Attempt.meets_bind (ih h.2) fun answer hanswer => ?_
        obtain ⟨count, outer⟩ := answer
        exact Attempt.meets_pure ⟨⟨hfirst hanswer.2, hanswer.1⟩,
          by rw [List.map_cons, List.map_cons, hanswer.2]⟩
      · exact Attempt.meets_pure ⟨⟨hfirst rfl, h.2⟩, rfl⟩

theorem allKeep_closeFrames (k : Nat) (ended : Option Nat) (h : AllKeep s continuation r.frames) :
    AllKeep s continuation (closeFrames s.arena k ended r).2.frames := by
  refine closeFrames_of (P := fun r' => AllKeep s continuation r'.frames)
    (fun r f rest hf hr => ?_) k ended h
  rw [hf] at hr
  rw [frames_closeFrame]
  exact hr.2

theorem allKeep_beginStep {id : Nat} (hm : m.kind = .begins id) (hr : Reached s continuation n r)
    (hl : lookUp s r = .ok (some m, first)) (hr' : r'.frames = r.frames)
    (h : AllKeep s continuation r.frames) :
    (beginStep s id m r').Meets (fun r' => AllKeep s continuation r'.frames) fun _ => True := by
  have hturnDown : AllKeep s continuation (turnDown s m r').frames := by
    rw [frames_turnDown, hr']
    exact h
  have hheld := Attempt.meets_mono (frames_holdBegin s (s.arena.mode id) (lexeme s m) r')
    (fun _ h => h) fun _ _ => trivial
  refine meets_beginStep (fun _ => hturnDown) (fun _ _ => trivial) (fun _ => hheld)
    fun data r1 hopens hr1 => ?_
  have hkept : EndsAsBegun (s.arena.mode id) →
      data.get? Fragment.beginKey = (viewOf s m).group? 1 := fun hmode => by
    have hcounts := hopens.2
    rw [hmode.onBegin] at hcounts
    exact data_of_keepBegin hcounts
  show AllKeep s continuation (startMode s id m data r1).frames
  rw [frames_startMode, hr1, hr']
  exact ⟨fun hmode => .opened hr hl hm rfl (hkept hmode), h⟩

theorem allKeep_endStep (m : RuleMatch) (h : AllKeep s continuation r.frames) :
    (endStep s m r).Meets (fun r' => AllKeep s continuation r'.frames) fun _ => True := by
  have hclosed : ∀ n {frames : List Frame} {r1 : Run}, AllKeep s continuation frames →
      r1.frames = frames → AllKeep s continuation (closeFrames s.arena n none r1).2.frames :=
    fun n _ _ ha hr1 => allKeep_closeFrames n none (hr1 ▸ ha)
  refine meets_endStep (allKeep_endOf h m) (fun _ ha => ha.1)
    (fun _ frames _ => Attempt.meets_mono (frames_holdEnd s _ m { r with frames }) (fun _ h => h)
      fun _ _ => trivial)
    (fun n _ _ ha hr1 _ => hclosed n ha.1 hr1) fun n _ r1 next ha hr1 _ => ?_
  show AllKeep s continuation (startMode s next m .empty _).frames
  rw [frames_startMode]
  exact ⟨fun _ => .started rfl, hclosed n ha.1 hr1⟩

/-- **In every step the open modes keep their beginnings.** -/
theorem allKeep_step (hr : Reached s continuation n r) (hl : lookUp s r = .ok (some m, first))
    (h : AllKeep s continuation r.frames) :
    (step s m (r.atRule first)).Meets (fun r' => AllKeep s continuation r'.frames) fun _ => True := by
  refine meets_step h (fun _ => trivial) (fun id hid => allKeep_beginStep hid hr hl rfl h)
    (fun _ => allKeep_endStep m h) (fun _ => ?_) fun _ => trivial
  rw [frames_passIllegal]
  exact h

/-- **At every point of a run the open modes keep their beginnings.** -/
theorem allKeep_reached (hr : Reached s continuation n r) : AllKeep s continuation r.frames := by
  induction hr with
  | start =>
    have hstarted : ∀ frames : List Frame, (∀ f ∈ frames, f.data = .empty) →
        AllKeep s continuation frames := by
      intro frames hframes
      induction frames with
      | nil => trivial
      | cons f outer ih =>
        exact ⟨fun _ => .started (hframes f List.mem_cons_self),
          ih fun g hg => hframes g (List.mem_cons_of_mem f hg)⟩
    refine hstarted _ fun f hf => ?_
    rw [frames_initial, framesOf] at hf
    obtain ⟨id, _, rfl⟩ := List.mem_map.mp hf
    rfl
  | next hr hturn ih =>
    obtain ⟨m, first, hl, hstep, _⟩ := turn_next hturn
    exact (allKeep_step hr hl ih).1 _ (by rw [hstep])

/-! ## 3. Ends -/

theorem group?_viewOf (s : Scene) (m : RuleMatch) (i : Nat) : (viewOf s m).group? i =
    ((m.groups[i]?).join).map fun span => s.text.slice span.start span.stop := by
  unfold viewOf MatchView.group?
  rcases m.groups[i]? with _ | _ | span <;> rfl

/-- **A mode that ends as it has begun is closed by its end just where this repeats its beginning.** -/
theorem endOf_endsAsBegun (hmode : EndsAsBegun (s.arena.mode f.mode))
    (hf : endsAt s (s.arena.mode f.mode) m.span.start = true) (below : List Frame) :
    (f.data.get? Fragment.beginKey = (viewOf s m).group? 1 →
      endOf s m (f :: below) = pure (some (closingWith s.arena (f :: below)), f :: below)) ∧
    (f.data.get? Fragment.beginKey ≠ (viewOf s m).group? 1 →
      (s.arena.mode f.mode).endsWithParent = false →
      endOf s m (f :: below) = pure (none, f :: below)) := by
  have hasked : askEnd s (s.arena.mode f.mode) m f.data =
      pure (f.data.get? Fragment.beginKey == (viewOf s m).group? 1, f.data) := by
    rw [askEnd, if_pos hf, hmode.onEnd]
    exact askHook_checkBegin s m f.data
  rw [endOf, hasked]
  refine ⟨fun hsame => ?_, fun hdiffers hends => ?_⟩
  · rw [beq_iff_eq.mpr hsame]
    rfl
  · rw [beq_eq_false_iff_ne.mpr hdiffers]
    simp only [pure_bind, Bool.false_eq_true, if_false, hends]

/-- **A hook at the end of a mode sees the groups of the own end**, also where the end is found in a
    mode inside: what it is told of an end that is passed on to its mode are the groups of the own end
    of this mode, read by itself. So a mode that ends as it has begun is closed by its end just where
    the first group of this has read what that of its beginning has read. -/
theorem hooks_see_own_groups {above below : List Frame}
    (hc : compileLanguage name language = .ok s.arena) (hext : language.extensions = [])
    (hcontinued : ∀ stack, continuation = some stack → StackReached s.arena stack)
    (hr : Reached s continuation n r) (hl : lookUp s r = .ok (some m, first)) (hends : m.kind = .ends)
    (hframes : r.frames = above ++ f :: below) (hpassed : PassedOn s m above)
    (hf : endsAt s (s.arena.mode f.mode) m.span.start = true)
    (hapart : KeepsApart s language.caseInsensitive above below f) :
    ∃ regex own, (s.arena.mode f.mode).endRegex = some regex ∧
      regex.matchAt s.text m.span.start = some own ∧
      (∀ hook, (s.arena.mode f.mode).onEnd = some hook →
        askEnd s (s.arena.mode f.mode) m f.data = askHook s hook m f.data) ∧
      (∀ i, (viewOf s m).group? i =
        (own.group? i).map fun span => s.text.slice span.start span.stop) ∧
      (EndsAsBegun (s.arena.mode f.mode) →
        KeepsBegin s continuation (below.map (·.mode)) f ∧
        (f.data.get? Fragment.beginKey =
            ((own.group? 1).map fun span => s.text.slice span.start span.stop) →
          endOf s m r.frames =
            pure (some (closingWith s.arena (f :: below) + above.length), r.frames)) ∧
        (f.data.get? Fragment.beginKey ≠
            ((own.group? 1).map fun span => s.text.slice span.start span.stop) →
          (s.arena.mode f.mode).endsWithParent = false →
          endOf s m r.frames = pure (none, r.frames))) := by
  have hbetween : Between s continuation r := .inl ⟨n, hr⟩
  have hlinked := linked_of_reached hc (.between rfl hcontinued hbetween)
  obtain ⟨regex, own, hregex, hown, _, hgroups⟩ := groups_of_own_end hc hext
    (inStep_between hc hbetween) hlinked hl hends hframes hpassed hf hapart
  have hview : ∀ i, (viewOf s m).group? i =
      (own.group? i).map fun span => s.text.slice span.start span.stop := fun i => by
    rw [group?_viewOf, hgroups i]
  refine ⟨regex, own, hregex, hown, fun hook hhook => ?_, hview, fun hmode => ?_⟩
  · rw [askEnd, if_pos hf, hhook]
    rfl
  · have hkeep := allKeep_reached hr
    rw [hframes] at hkeep
    obtain ⟨hsame, hdiffers⟩ := endOf_endsAsBegun hmode hf below
    rw [← hview 1, hframes, endOf_passedOn hpassed]
    refine ⟨(allKeep_append hkeep).1 hmode, fun h => ?_, fun h hparent => ?_⟩
    · rw [hsame h]
      rfl
    · rw [hdiffers h hparent]
      rfl

/-! ## 4. Heredocs -/

/-- A part of a heredoc, with an end of its own; it ends with the heredoc too. -/
def heredocPart (own : String) : Mode where
  scope := some (.single "c")
  beginPattern := some (.single "\\[")
  endPattern := some (.single own)
  endsWithParent := some true

/-- A text that ends with the word that it begins with. -/
def heredoc (own : String) : Mode :=
  Fragment.endSameAsBegin {
    scope := some (.single "h")
    beginPattern := some (.single "<<(\\w+)")
    endPattern := some (.single "(\\w+)")
    contains := some [.mode ⟨[("part", 0)], heredocPart own⟩] }

/-- A language of heredocs. -/
def heredocLanguage (own : String) : Language where
  mode := { contains := some [.mode ⟨[("heredoc", 0)], heredoc own⟩] }

/-- The language is written with a heredoc and a part of it. -/
theorem writtenWith_heredoc (own : String) :
    Arena.WrittenWith (heredocLanguage own) fun raw => raw = heredoc own ∨ raw = heredocPart own := by
  refine ⟨rfl, rfl, ?_, ?_, ?_⟩
  · rintro raw (rfl | rfl | rfl) <;> rfl
  · rintro raw (rfl | rfl | rfl) c hc es hes s hs
    · obtain rfl := List.mem_singleton.mp hc
      cases hes
      cases List.mem_singleton.mp hs
      exact .inl rfl
    · obtain rfl := List.mem_singleton.mp hc
      cases hes
      cases List.mem_singleton.mp hs
      exact .inr rfl
    · cases hc
  · rintro raw (rfl | rfl) s hs <;> cases hs

/-- A mode with an end that does not end with its parent is a heredoc. -/
theorem endsAsBegun_heredoc {own : String} {arena : Arena} {id : Nat}
    (hc : compileLanguage name (heredocLanguage own) = .ok arena)
    (he : (arena.mode id).endSource.isSome = true) (hends : (arena.mode id).endsWithParent = false) :
    EndsAsBegun (arena.mode id) := by
  obtain ⟨parent, key, raw, p, hraw, hp, hm⟩ := (writtenWith_heredoc own).compiled hc he
  rcases hraw with rfl | rfl
  · obtain ⟨hbegin, hend⟩ := Arena.hooks_of_compileParts hp rfl rfl
    rw [hm]
    exact ⟨hbegin, hend⟩
  · have hlinks := congrArg Arena.Links.endsWithParent
      ((writtenWith_heredoc own).links (.inr (.inr rfl)) hp)
    have htrue : (arena.mode id).endsWithParent = true := by
      rw [hm]
      exact congrArg Arena.isSet hlinks
    rw [hends] at htrue
    cases htrue

/-- **A run has come to the end of a heredoc inside a part of it.** -/
structure InPart (s : Scene) (r : Run) (part whole : Frame) (m : RuleMatch) (first : Nat) : Prop where
  frames : r.frames = [part, whole]
  found : lookUp s r = .ok (some m, first)
  kind : m.kind = .ends
  passed : PassedOn s m [part]
  ends : endsAt s (s.arena.mode whole.mode) m.span.start = true
  own : (s.arena.mode whole.mode).endSource.isSome = true ∧
    (s.arena.mode whole.mode).endsWithParent = false

/-- Whether a run has come there, and its frames and the match pass a test. -/
def isInPart (s : Scene) (r : Run) (test : Frame → Frame → RuleMatch → Bool) : Bool :=
  match r.frames, lookUp s r with
  | [part, whole], .ok (some m, _) =>
    m.kind == .ends && !endsAt s (s.arena.mode part.mode) m.span.start &&
      (s.arena.mode part.mode).endsWithParent && endsAt s (s.arena.mode whole.mode) m.span.start &&
      (s.arena.mode whole.mode).endSource.isSome && !(s.arena.mode whole.mode).endsWithParent &&
      test part whole m
  | _, _ => false

theorem exists_inPart {test : Frame → Frame → RuleMatch → Bool} (h : isInPart s r test = true) :
    ∃ part whole m first, InPart s r part whole m first ∧ test part whole m = true := by
  unfold isInPart at h
  split at h
  · rename_i part whole m first hframes hfound
    simp only [Bool.and_eq_true, Bool.not_eq_true', beq_iff_eq] at h
    obtain ⟨⟨⟨⟨⟨⟨hkind, hnot⟩, hparent⟩, hends⟩, hown⟩, hlast⟩, htest⟩ := h
    refine ⟨part, whole, m, first, ⟨hframes, hfound, hkind, fun g hg => ?_, hends, hown, hlast⟩, htest⟩
    obtain rfl := List.mem_singleton.mp hg
    exact ⟨hnot, hparent⟩
  · cases h

/-- Whether a run has come in three rounds to the end of a heredoc inside a part of it. -/
def comesToPart (arena : Arena) (test : Frame → Frame → RuleMatch → Bool) : Bool :=
  (afterRounds? (aloneIn arena "<<a[b a") none 3).any fun r =>
    isInPart (aloneIn arena "<<a[b a") r test

theorem exists_of_comesToPart {arena : Arena} {test : Frame → Frame → RuleMatch → Bool}
    (h : comesToPart arena test = true) : ∃ r part whole m first,
      Reached (aloneIn arena "<<a[b a") none 3 r ∧
      InPart (aloneIn arena "<<a[b a") r part whole m first ∧ test part whole m = true := by
  obtain ⟨r, hr, h⟩ := (Option.any_eq_true _ _).mp h
  obtain ⟨part, whole, m, first, hin, htest⟩ := exists_inPart h
  exact ⟨r, part, whole, m, first, reached_of_afterRounds? hr, hin, htest⟩

/-- Inside a part of it that has no groups a heredoc ends with its word. -/
theorem heredoc_ends_in_part : ∃ arena r part whole m first,
    compileLanguage "l" (heredocLanguage "\\]") = .ok arena ∧
    Reached (aloneIn arena "<<a[b a") none 3 r ∧
    InPart (aloneIn arena "<<a[b a") r part whole m first ∧
    (viewOf (aloneIn arena "<<a[b a") m).group? 1 = some "a" ∧
    endOf (aloneIn arena "<<a[b a") m r.frames = pure (some 2, r.frames) := by
  have hcheck : (compileLanguage "l" (heredocLanguage "\\]")).toOption.any (fun arena =>
      comesToPart arena fun part whole m =>
        keepsApart (aloneIn arena "<<a[b a") false [part] [] whole &&
        (viewOf (aloneIn arena "<<a[b a") m).group? 1 == some "a" &&
        whole.data.get? Fragment.beginKey == some "a") = true := by decide +kernel
  obtain ⟨arena, hc, hcheck⟩ := exists_of_any hcheck
  obtain ⟨r, part, whole, m, first, hr, hin, htest⟩ := exists_of_comesToPart hcheck
  simp only [Bool.and_eq_true, beq_iff_eq] at htest
  obtain ⟨⟨hapart, hgroup⟩, hdata⟩ := htest
  obtain ⟨regex, own, _, _, _, hview, hclosed⟩ := hooks_see_own_groups
    (s := aloneIn arena "<<a[b a") hc rfl (fun _ h => by cases h) hr hin.found hin.kind
    (show r.frames = [part] ++ whole :: [] from hin.frames) hin.passed hin.ends
    (keepsApart_of_check hapart)
  have hmode := endsAsBegun_heredoc hc hin.own.1 hin.own.2
  have hcloses := (hclosed hmode).2.1 (hdata.trans (hgroup.symm.trans (hview 1)))
  rw [show closingWith (aloneIn arena "<<a[b a").arena [whole] = 1 by simp [closingWith]] at hcloses
  exact ⟨arena, r, part, whole, m, first, hc, hr, hin, hgroup, hcloses⟩

/-- **A group of an end inside is taken for that of the own end**: the hook of a heredoc is told of its
    end inside a part of it that the first group has read nothing, and lets the heredoc go on, though
    the first group of its own end has read the word that it began with. -/
theorem group_inside_hides_own : ∃ arena r part whole m first regex own,
    compileLanguage "l" (heredocLanguage "(x)") = .ok arena ∧
    Reached (aloneIn arena "<<a[b a") none 3 r ∧
    InPart (aloneIn arena "<<a[b a") r part whole m first ∧
    EndsAsBegun (arena.mode whole.mode) ∧ (arena.mode whole.mode).endRegex = some regex ∧
    regex.matchAt (aloneIn arena "<<a[b a").text m.span.start = some own ∧
    (own.group? 1).map (fun span => (aloneIn arena "<<a[b a").text.slice span.start span.stop) =
      some "a" ∧ whole.data.get? Fragment.beginKey = some "a" ∧
    (viewOf (aloneIn arena "<<a[b a") m).group? 1 = none ∧
    (endOf (aloneIn arena "<<a[b a") m r.frames).result.toOption.map (·.1) = some none := by
  have hcheck : (compileLanguage "l" (heredocLanguage "(x)")).toOption.any (fun arena =>
      comesToPart arena fun part whole m =>
        ((arena.mode whole.mode).endRegex.any fun regex =>
          (regex.matchAt (aloneIn arena "<<a[b a").text m.span.start).any fun own =>
            (own.group? 1).map (fun span =>
              (aloneIn arena "<<a[b a").text.slice span.start span.stop) == some "a") &&
        whole.data.get? Fragment.beginKey == some "a" &&
        (viewOf (aloneIn arena "<<a[b a") m).group? 1 == none &&
        (endOf (aloneIn arena "<<a[b a") m [part, whole]).result.toOption.map (·.1) == some none) =
      true := by decide +kernel
  obtain ⟨arena, hc, hcheck⟩ := exists_of_any hcheck
  obtain ⟨r, part, whole, m, first, hr, hin, htest⟩ := exists_of_comesToPart hcheck
  simp only [Bool.and_eq_true, beq_iff_eq, Option.any_eq_true] at htest
  obtain ⟨⟨⟨⟨regex, hregex, own, hown, hword⟩, hdata⟩, hgroup⟩, hend⟩ := htest
  exact ⟨arena, r, part, whole, m, first, regex, own, hc, hr, hin,
    endsAsBegun_heredoc hc hin.own.1 hin.own.2, hregex, hown, hword, hdata, hgroup,
    by rw [hin.frames]; exact hend⟩

end Highlight.Scan
