import Highlight.Proofs.Scan.KeptText
import Highlight.Proofs.Scan.Places

/-!
# Every character in its scopes

Text is held back and told later than it is passed, but before a mode opens or closes: what is held
back is always for the modes that are open. So every character is told where it belongs.

* `Separate` -- flags with which held-back text stays in its mode;
* `PlacedUpTo` -- what has been passed is where it belongs;
* `placed_flush`, `placed_beginStep`, `placed_endStep`, `placed_step` -- the steps;
* `placed_scan`, `placed_scanAll` -- whole runs.
-/

namespace Highlight.Scan

open Highlight.Arena (ArenaMode RuleMatch ScopeEmit Undisturbed compileLanguage)
open Highlight.Grammar (HookData HookNote Language)
open Highlight.Token (Event Leaf eventsLeaves)
open List (Forall₂)

variable {s : Scene} {r r' : Run} {t : String} {m : RuleMatch} {placed : List Leaf}
  {frames : List Frame}

/-! ## 1. Text that has been passed -/

/-- **Flags with which held-back text stays in its mode**: no mode is skipped or hands its text on,
    and an end that is left outside has no label, and no mode to be started there. -/
structure Separate (arena : Arena) : Prop where
  skip : ∀ id, (arena.mode id).skip = false
  subLanguage : ∀ id, (arena.mode id).subLanguage = none
  excludeEnd : ∀ id, (arena.mode id).excludeEnd = true → (arena.mode id).endScope = none
  starts : ∀ id next, (arena.mode id).starts = some next → ∀ id', (arena.mode id').excludeEnd = false

/-- **What has been passed is where it belongs**: what has been told of it, and what is held back,
    which is for the modes that are open now. -/
def PlacedUpTo (s : Scene) (r : Run) (placed : List Leaf) : Prop :=
  ∃ told, Forall₂ (Under s.arena) r.leaves told ∧
    placed = told ++ placesOf s.arena r.frames r.buffer

/-- Nothing is held back of what has been passed. -/
theorem placedUpTo_of_told (h : Forall₂ (Under s.arena) r.leaves placed) (hb : r.buffer = "") :
    PlacedUpTo s r placed := by
  refine ⟨placed, h, ?_⟩
  rw [hb, placesOf_empty, List.append_nil]

theorem PlacedUpTo.hold (h : PlacedUpTo s r placed) (t : String) :
    PlacedUpTo s (r.hold t) (placed ++ placesOf s.arena r.frames t) := by
  obtain ⟨told, htold, rfl⟩ := h
  refine ⟨told, htold, ?_⟩
  show _ = told ++ placesOf s.arena r.frames (r.buffer ++ t)
  rw [placesOf_append, List.append_assoc]

theorem PlacedUpTo.congr (h : PlacedUpTo s r placed) (he : r'.events = r.events)
    (hf : r'.frames.map (·.mode) = r.frames.map (·.mode)) (hb : r'.buffer = r.buffer) :
    PlacedUpTo s r' placed := by
  obtain ⟨told, htold, rfl⟩ := h
  refine ⟨told, ?_, ?_⟩
  · unfold Run.leaves
    rw [he]
    exact htold
  · unfold placesOf
    rw [scopesOf_congr s.arena hf, hb]

theorem leaves_emit_silent (r : Run) {e : Event} (h : ∀ opened, e.leaves [] opened = []) :
    (r.emit e).leaves = r.leaves := by
  show eventsLeaves [] [] (e :: r.events).reverse = _
  rw [List.reverse_cons, Token.eventsLeaves_concat_silent _ h]
  rfl

/-- What is told under the open scopes is where it belongs. -/
theorem told_writes {told : List Leaf} (hw : Writes s.arena r r' t)
    (hopened : r.opened = some (scopesOf s.arena frames))
    (htold : Forall₂ (Under s.arena) r.leaves told) :
    Forall₂ (Under s.arena) r'.leaves (told ++ placesOf s.arena frames t) := by
  obtain ⟨new, hnew, hunder⟩ := hw.leaves _ hopened
  rw [hnew]
  exact List.rel_append htold hunder

theorem placed_passChar (h : PlacedUpTo s r placed) (i : Nat) :
    PlacedUpTo s (passChar s i r) (placed ++ placesOf s.arena r.frames (s.text.slice i (i + 1))) :=
  h.hold _

/-- What a match that is turned down has read is passed as plain text, if at all. -/
theorem placed_turnDown (h : PlacedUpTo s r placed) :
    PlacedUpTo s (turnDown s m r) (placed ++ placesOf s.arena r.frames
      (s.text.slice m.span.start (turnDown s m r).index)) ∧
    (turnDown s m r).frames = r.frames := by
  refine turnDown_of (P := fun r' => PlacedUpTo s r' (placed ++ placesOf s.arena r.frames
    (s.text.slice m.span.start r'.index)) ∧ r'.frames = r.frames) ⟨placed_passChar h _, rfl⟩ ⟨?_, rfl⟩
  rw [Text.slice_self, placesOf_empty, List.append_nil]
  exact h

section Steps

variable (hseparate : Separate s.arena) (hregular : Regular s.arena)
  (hundisturbed : ∀ id, Undisturbed (s.arena.mode id))

/-! ## 2. Modes open -/

include hseparate in
/-- **What is held back is told where it belongs.** -/
theorem placed_flush (hin : InStep s r) (h : PlacedUpTo s r placed) :
    (flush s r).Meets (fun r' => Forall₂ (Under s.arena) r'.leaves placed ∧ r'.buffer = "" ∧
      r'.frames = r.frames) (StepFails s) := by
  have hsub : (s.top { r with buffer := "" }).subLanguage = none := hseparate.subLanguage _
  unfold flush
  simp only
  rw [hsub]
  have hw := (piecewise_writes s.arena).tellKeywords r.buffer { r with buffer := "" }
  obtain ⟨told, htold, rfl⟩ := h
  exact Attempt.meets_pure
    ⟨told_writes hw hin.opened htold, hw.tells.buffer, hw.tells.frames⟩

theorem leaves_openMode (r : Run) (arena : Arena) (mode : ArenaMode) :
    (r.openMode arena mode).leaves = r.leaves := by
  unfold Run.openMode
  cases mode.scope with
  | none => rfl
  | some label => exact leaves_emit_silent r fun _ => rfl

/-- **A mode that opens takes what is held back for it along.** -/
theorem placed_startMode (hin : InStep s r) {told : List Leaf}
    (htold : Forall₂ (Under s.arena) r.leaves told) (id : Nat) (data : HookData)
    (hparts : ∀ labels, (s.arena.mode id).beginScope = some (.parts labels) →
      r.buffer = partsText s m labels.entries) :
    PlacedUpTo s (startMode s id m data r)
      (told ++ placesOf s.arena (startMode s id m data r).frames r.buffer) ∧
    (startMode s id m data r).frames = ⟨id, data⟩ :: r.frames := by
  have hframes := r.frames_openMode s.arena (s.arena.mode id)
  have hbuffer := (told_openMode r s.arena (s.arena.mode id)).2
  have hopened : (r.openMode s.arena (s.arena.mode id)).opened =
      some (scopesOf s.arena (⟨id, data⟩ :: r.frames)) := by
    rw [Run.opened_openMode hin.opened, scopesOf_cons]
  have hleaves : Forall₂ (Under s.arena) (r.openMode s.arena (s.arena.mode id)).leaves told := by
    rw [leaves_openMode]
    exact htold
  unfold startMode
  simp only
  split
  · rename_i label hlabel
    have hw := writes_emitLabelled { r.openMode s.arena (s.arena.mode id) with buffer := "" }
      (r.openMode s.arena (s.arena.mode id)).buffer (.begins hlabel rfl)
    have hnew := told_writes hw hopened hleaves
    rw [hbuffer] at hnew
    have hf := hw.tells.frames.trans hframes
    rw [hbuffer] at hf ⊢
    rw [hf]
    exact ⟨placedUpTo_of_told hnew (hbuffer ▸ hw.tells.buffer), rfl⟩
  · rename_i labels hlabels
    have hw := (piecewise_writes s.arena).tellParts m labels
      (r.openMode s.arena (s.arena.mode id)) fun part label hmem => .begins hlabels ⟨part, hmem⟩
    have hnew := told_writes hw hopened hleaves
    rw [← hparts labels hlabels] at hnew
    have hf := hw.tells.frames.trans hframes
    rw [hf]
    exact ⟨placedUpTo_of_told hnew rfl, rfl⟩
  · rw [hframes]
    refine ⟨⟨told, hleaves, ?_⟩, rfl⟩
    rw [hbuffer]

include hseparate in
/-- The beginning of a mode is told with what was open before it if it is left outside. If it is not
    read again it is held back for the mode. -/
theorem placed_holdBegin (hin : InStep s r) (h : PlacedUpTo s r placed) (id : Nat) (t : String) :
    (holdBegin s (s.arena.mode id) t r).Meets
      (fun r' => Forall₂ (Under s.arena) r'.leaves
          (placed ++ placesOf s.arena r.frames (if (s.arena.mode id).excludeBegin then t else "")) ∧
        r'.buffer = (if (s.arena.mode id).returnBegin || (s.arena.mode id).excludeBegin then ""
          else t) ∧ r'.frames = r.frames) (StepFails s) := by
  have hflushed : (flush s (if (s.arena.mode id).excludeBegin then r.hold t else r)).Meets
      (fun r' => Forall₂ (Under s.arena) r'.leaves
          (placed ++ placesOf s.arena r.frames (if (s.arena.mode id).excludeBegin then t else "")) ∧
        r'.buffer = "" ∧ r'.frames = r.frames) (StepFails s) := by
    split
    · have hheld : InStep s (r.hold t) := hin.congr rfl rfl
      exact placed_flush hseparate hheld (h.hold t)
    · rw [placesOf_empty, List.append_nil]
      exact placed_flush hseparate hin h
  refine meets_holdBegin (fun hskip => ?_) (fun _ => hflushed) fun _ r1 hr1 => ?_
  · cases (hseparate.skip id).symm.trans hskip
  · obtain ⟨htold, hbuffer, hframes⟩ := hr1
    split
    · exact ⟨htold, hbuffer, hframes⟩
    · exact ⟨htold, rfl, hframes⟩

include hseparate hregular hundisturbed in
/-- **The beginning of a mode belongs to the mode, unless it is left outside.** -/
theorem placed_beginStep (hin : InStep s r) (h : PlacedUpTo s r placed) {id top : Nat}
    (hid : m.kind = .begins id) (htiled : PartsTiled s.arena top m) :
    (beginStep s id m r).Meets (fun r' => PlacedUpTo s r' (placed ++
      placesOf s.arena (if (s.arena.mode id).excludeBegin then r.frames else r'.frames)
        (s.text.slice m.span.start r'.index))) (StepFails s) := by
  refine meets_beginStep (fun _ => ?_) (meets_askHook? id m _ .inl).2
    (fun _ => Attempt.meets_and (inStep_holdBegin hin _ _)
      (placed_holdBegin hseparate hin h id (lexeme s m))) fun data r1 _ hr1 => ?_
  · obtain ⟨hplaced, hframes⟩ := placed_turnDown (m := m) h
    rw [hframes, ite_self]
    exact hplaced
  · obtain ⟨hin1, htold, hbuffer, hframes⟩ := hr1
    have hparts : ∀ labels, (s.arena.mode id).beginScope = some (.parts labels) →
        r1.buffer = partsText s m labels.entries := by
      intro labels hl
      have hdot : (s.arena.mode id).skipAfterDot = false :=
        Bool.eq_false_iff.mpr fun hd => hregular.beginKeywords id hd labels hl
      obtain ⟨_, hexclude, hreturn⟩ := (hundisturbed id).begins labels hl
      rw [hbuffer, hexclude, hreturn, (partsText_of_tiled _ _ (htiled.begins id labels hid hdot hl)).1]
      rfl
    obtain ⟨hplaced, hopen⟩ := placed_startMode hin1 htold id data hparts
    refine PlacedUpTo.congr ?_ rfl rfl rfl
    -- What is left outside has been told, and what is read again has not been passed.
    cases hexclude : (s.arena.mode id).excludeBegin with
    | true =>
      have hreturn := hregular.not_returnBegin hexclude
      rw [hbuffer, hexclude, hreturn, Bool.false_or, if_pos rfl, if_pos rfl, placesOf_empty,
        List.append_nil] at hplaced
      rw [hreturn]
      exact hplaced
    | false =>
      rw [hbuffer, hexclude, Bool.or_false, if_neg Bool.false_ne_true, placesOf_empty,
        List.append_nil] at hplaced
      cases hreturn : (s.arena.mode id).returnBegin with
      | true =>
        rw [hreturn] at hplaced
        simp only [if_true, Text.slice_self]
        exact hplaced
      | false =>
        rw [hreturn] at hplaced
        exact hplaced

/-! ## 3. Modes close -/

include hseparate hregular in
/-- The end of a mode is told with the modes that it closes, unless it is left outside or read
    again. -/
theorem placed_holdEnd (hin : InStep s r) (h : PlacedUpTo s r placed) (id : Nat)
    (hkind : m.kind = .ends) (htiled : PartsTiled s.arena id m) :
    (holdEnd s (s.arena.mode id) m r).Meets
      (fun r' => Forall₂ (Under s.arena) r'.leaves (placed ++ placesOf s.arena r.frames
          (if (s.arena.mode id).returnEnd || (s.arena.mode id).excludeEnd then ""
            else lexeme s m)) ∧
        r'.buffer = (if (s.arena.mode id).excludeEnd then lexeme s m else "") ∧
        r'.frames = r.frames) (StepFails s) := by
  have hlabelled : ∀ scope, (s.arena.mode id).endScope = some scope →
      (s.arena.mode id).returnEnd = false ∧ (s.arena.mode id).excludeEnd = false := by
    intro scope hscope
    refine ⟨hregular.not_returnEnd_of_label hscope, Bool.eq_false_iff.mpr fun he => ?_⟩
    rw [hseparate.excludeEnd id he] at hscope
    cases hscope
  refine meets_holdEnd
    (fun _ => Attempt.meets_and (inStep_flush hin) (placed_flush hseparate hin h))
    (fun label hscope r1 hr1 => ?_) (fun labels hscope r1 hr1 => ?_) (fun _ hskip => ?_)
    (K := fun r1 => Forall₂ (Under s.arena) r1.leaves (placed ++ placesOf s.arena r.frames
        (if (s.arena.mode id).returnEnd || (s.arena.mode id).excludeEnd then "" else lexeme s m)) ∧
      r1.buffer = "" ∧ r1.frames = r.frames) (fun _ _ => ?_) fun _ _ r1 hr1 => ?_
  · obtain ⟨hreturn, hexclude⟩ := hlabelled _ hscope
    rw [hreturn, hexclude]
    obtain ⟨hin1, htold, hbuffer, hframes⟩ := hr1
    have hw := writes_emitLabelled r1 (lexeme s m) (.ends hscope rfl)
    have hopened := hin1.opened
    rw [hframes] at hopened
    exact ⟨told_writes hw hopened htold, hw.tells.buffer.trans hbuffer,
      hw.tells.frames.trans hframes⟩
  · obtain ⟨hreturn, hexclude⟩ := hlabelled _ hscope
    rw [hreturn, hexclude]
    have hparent : (s.arena.mode id).endsWithParent = false :=
      Bool.eq_false_iff.mpr fun hp => hregular.endsWithParent id hp labels hscope
    have htext : partsText s m labels.entries = lexeme s m :=
      (partsText_of_tiled _ _ (htiled.ends labels hkind hparent hscope)).1
    obtain ⟨hin1, htold, hbuffer, hframes⟩ := hr1
    have hw := (piecewise_writes s.arena).tellParts m labels r1
      fun part label hmem => .ends hscope ⟨part, hmem⟩
    have hopened := hin1.opened
    rw [hframes] at hopened
    have hnew := told_writes hw hopened htold
    rw [htext] at hnew
    exact ⟨hnew, rfl, hw.tells.frames.trans hframes⟩
  · cases (hseparate.skip id).symm.trans hskip
  · split
    · rw [placesOf_empty, List.append_nil]
      exact placed_flush hseparate hin h
    · have hheld : InStep s (r.hold (lexeme s m)) := hin.congr rfl rfl
      exact placed_flush hseparate hheld (h.hold (lexeme s m))
  · obtain ⟨htold, hbuffer, hframes⟩ := hr1
    split
    · exact ⟨htold, rfl, hframes⟩
    · exact ⟨htold, hbuffer, hframes⟩

/-- Modes that close leave what has been told where it is. -/
theorem leaves_closeFrames (arena : Arena) (n : Nat) (ended : Option Nat) (r : Run) :
    (closeFrames arena n ended r).2.leaves = r.leaves := by
  refine closeFrames_of (P := fun r' => r'.leaves = r.leaves) (fun r1 f rest _ h => ?_) n ended rfl
  refine closeFrame_of (P := fun r' => r'.leaves = r.leaves) ?_ fun _ _ h => h
  unfold Run.closeMode
  split
  · exact (leaves_emit_silent _ fun _ => rfl).trans h
  · exact h

/-- **An end has been told with the modes that it closes**, unless it is left outside or read again. -/
structure EndPlaced (s : Scene) (m : RuleMatch) (placed : List Leaf) (r r' : Run) : Prop where
  inStep : InStep s r'
  leaves : Forall₂ (Under s.arena) r'.leaves (placed ++ placesOf s.arena r.frames
    (if (s.top r).returnEnd || (s.top r).excludeEnd then "" else lexeme s m))
  buffer : r'.buffer = if (s.top r).excludeEnd then lexeme s m else ""

theorem EndPlaced.closeFrames (h : EndPlaced s m placed r r') (n : Nat) :
    EndPlaced s m placed r (closeFrames s.arena n none r').2 where
  inStep := by
    have hnone : ∀ id, (none : Option Nat) = some id → id < s.arena.modes.size :=
      fun _ hid => by cases hid
    exact (inStep_closeFrames n h.inStep hnone).1
  leaves := by
    rw [leaves_closeFrames]
    exact h.leaves
  buffer := (told_closeFrames s.arena n none r').2.trans h.buffer

include hregular in
/-- What is left outside of an end is held back for the modes that are open behind it; what is read
    again has not been passed. -/
theorem placed_passEnd (id : Nat) {r3 : Run} {buffer : String}
    (hbuffer : buffer = if (s.arena.mode id).excludeEnd then lexeme s m else "")
    (h : PlacedUpTo s r3 (placed ++ placesOf s.arena frames
      (if (s.arena.mode id).returnEnd || (s.arena.mode id).excludeEnd then "" else lexeme s m) ++
        placesOf s.arena r3.frames buffer)) {k : Nat}
    (hk : k = if (s.arena.mode id).returnEnd then m.span.start else m.span.stop) :
    PlacedUpTo s { r3 with index := k } (placed ++ placesOf s.arena
      (if (s.arena.mode id).excludeEnd then r3.frames else frames)
      (s.text.slice m.span.start k)) := by
  refine PlacedUpTo.congr (r := r3) ?_ rfl rfl rfl
  subst hbuffer hk
  cases hexclude : (s.arena.mode id).excludeEnd with
  | true =>
    have hreturn := hregular.not_returnEnd hexclude
    rw [hexclude, hreturn, Bool.or_true, if_pos rfl, if_pos rfl, placesOf_empty,
      List.append_nil] at h
    rw [hreturn]
    exact h
  | false =>
    rw [hexclude, Bool.or_false, if_neg Bool.false_ne_true, placesOf_empty, List.append_nil] at h
    cases hreturn : (s.arena.mode id).returnEnd with
    | true =>
      rw [hreturn, if_pos rfl, placesOf_empty] at h
      rw [if_pos rfl, Text.slice_self, placesOf_empty]
      exact h
    | false =>
      rw [hreturn] at h
      exact h

include hseparate hregular in
/-- **An end belongs to the modes that it closes, unless it is left outside.** -/
theorem placed_endStep (hin : InStep s r) (h : PlacedUpTo s r placed) (hkind : m.kind = .ends)
    (htiled : PartsTiled s.arena (s.topId r.frames) m) :
    (endStep s m r).Meets (fun r' => PlacedUpTo s r' (placed ++
      placesOf s.arena (if (s.top r).excludeEnd then r'.frames else r.frames)
        (s.text.slice m.span.start r'.index))) (StepFails s) := by
  -- What an end asks the modes leaves them open.
  have hasked : ∀ {frames : List Frame}, frames.map (·.mode) = r.frames.map (·.mode) →
      InStep s { r with frames } ∧ PlacedUpTo s { r with frames } placed ∧
        s.topId frames = s.topId r.frames ∧
        ∀ t, placesOf s.arena frames t = placesOf s.arena r.frames t := fun hmodes =>
    ⟨hin.congr_modes hmodes rfl, h.congr rfl hmodes rfl, topId_congr hmodes, fun t => by
      unfold placesOf
      rw [scopesOf_congr s.arena hmodes]⟩
  refine meets_endStep (H := fun _ _ => EndPlaced s m placed r) (meets_endOf s m r.frames)
    (fun frames ha => ?_) (fun n frames ha => ?_) (fun n frames r1 ha hr1 _ => ?_)
    fun n frames r1 next ha hr1 hnext => ?_
  · obtain ⟨_, h', _, hscopes⟩ := hasked ha.1
    have hplaced := placed_passChar h' m.span.start
    split
    · exact hplaced
    · rw [← hscopes]
      exact hplaced
  · obtain ⟨hin', h', htop, hscopes⟩ := hasked ha.1
    rw [← htop] at htiled
    refine Attempt.meets_mono (Attempt.meets_and (inStep_holdEnd hin' _ m)
      (placed_holdEnd hseparate hregular hin' h' (s.topId frames) hkind htiled))
      (fun r1 ⟨hin1, htold, hbuffer, _⟩ => ⟨hin1, ?_, ?_⟩) fun _ h => h
    · rw [hscopes, htop] at htold
      exact htold
    · rw [htop] at hbuffer
      exact hbuffer
  · obtain ⟨_, _, htop, _⟩ := hasked ha.1
    have hclosed := hr1.closeFrames n
    exact placed_passEnd hregular (s.topId r.frames) hclosed.buffer ⟨_, hclosed.leaves, rfl⟩
      (by rw [← htop]; rfl)
  · obtain ⟨_, _, htop, _⟩ := hasked ha.1
    have hclosed := hr1.closeFrames n
    obtain ⟨id', _, hstarts⟩ := Option.bind_eq_some_iff.mp hnext
    have hparts : ∀ labels, (s.arena.mode next).beginScope = some (.parts labels) →
        (closeFrames s.arena n none r1).2.buffer = partsText s m labels.entries :=
      fun labels hl => absurd hl (hregular.starts id' next hstarts labels)
    exact placed_passEnd hregular (s.topId r.frames) hclosed.buffer
      (placed_startMode hclosed.inStep hclosed.leaves next .empty hparts).1 (by rw [← htop]; rfl)

/-! ## 4. Any rule -/

theorem delimiterFrames_begins {id : Nat} (h : m.kind = .begins id) :
    delimiterFrames s m r r' = if (s.arena.mode id).excludeBegin then r.frames else r'.frames := by
  unfold delimiterFrames
  rw [h]

theorem delimiterFrames_ends (h : m.kind = .ends) :
    delimiterFrames s m r r' = if (s.top r).excludeEnd then r'.frames else r.frames := by
  unfold delimiterFrames
  rw [h]

/-- Where no mode opens or closes, what a match has read belongs to the open modes. -/
theorem delimiterFrames_of_eq (hf : r'.frames = r.frames) : delimiterFrames s m r r' = r.frames := by
  unfold delimiterFrames
  split
  · rw [hf, ite_self]
  · rw [hf, ite_self]
  · rfl

include hseparate hregular hundisturbed in
/-- **What one step passes is where it belongs.** -/
theorem placed_step (hin : InStep s r) (h : PlacedUpTo s r placed)
    (htiled : PartsTiled s.arena (s.topId r.frames) m) :
    (step s m r).Meets (fun r' => PlacedUpTo s r' (placed ++
      (placesOf s.arena r.frames (s.text.slice r.index m.span.start) ++
        placesOf s.arena (delimiterFrames s m r r') (s.text.slice m.span.start r'.index))))
      (StepFails s) := by
  have hin' : InStep s (r.hold (s.text.slice r.index m.span.start)) := hin.congr rfl rfl
  have h' := h.hold (s.text.slice r.index m.span.start)
  simp only [← List.append_assoc]
  generalize placed ++ placesOf s.arena r.frames (s.text.slice r.index m.span.start) = before at h' ⊢
  -- Text that is passed where no mode opens or closes belongs to the open modes.
  have hpassed : ∀ r1 : Run, r1.frames = r.frames →
      PlacedUpTo s r1 (before ++ placesOf s.arena r.frames (s.text.slice m.span.start r1.index)) →
      PlacedUpTo s r1 (before ++ placesOf s.arena (delimiterFrames s m r r1)
        (s.text.slice m.span.start r1.index)) := by
    intro r1 hf hr1
    rw [delimiterFrames_of_eq hf]
    exact hr1
  have hinMet : InStep s (r.meet s m) := hin'.congr rfl rfl
  have hmet : PlacedUpTo s (r.meet s m) before := h'.congr rfl rfl rfl
  refine meets_step (hpassed _ rfl (placed_passChar h' _)) (.zeroWidth _) (fun id hid => ?_)
    (fun hkind => ?_) (fun _ => hpassed _ (frames_passIllegal s m _) ?_) (.illegal _ _ _)
  · refine Attempt.meets_mono (placed_beginStep hseparate hregular hundisturbed hinMet hmet hid htiled)
      (fun r1 hr1 => ?_) fun _ h => h
    rw [delimiterFrames_begins hid]
    exact hr1
  · refine Attempt.meets_mono (placed_endStep hseparate hregular hinMet hmet hkind htiled)
      (fun r1 hr1 => ?_) fun _ h => h
    rw [delimiterFrames_ends hkind]
    exact hr1
  · exact passIllegal_of (P := fun r1 => PlacedUpTo s r1 (before ++
      placesOf s.arena r.frames (s.text.slice m.span.start r1.index)))
      (placed_passChar hmet _) ((hmet.hold (lexeme s m)).congr rfl rfl rfl)

/-! ## 5. Runs -/

theorem placed_initial (continuation : Option (List Nat)) :
    PlacedUpTo s (initial s.arena continuation) [] := by
  have hfold : ∀ (ids : List Nat) (r : Run),
      (ids.foldl (fun r id => r.openMode s.arena (s.arena.mode id)) r).leaves = r.leaves := by
    intro ids
    induction ids with
    | nil => exact fun r => rfl
    | cons id ids ih => exact fun r => (ih _).trans (leaves_openMode r s.arena (s.arena.mode id))
  have hkept : (initial s.arena continuation).told ++ (initial s.arena continuation).buffer = "" := by
    have hkept := (kept_initial (s := s) continuation).1
    unfold KeptUpTo at hkept
    rw [hkept, Text.slice_self]
  have hbuffer : (initial s.arena continuation).buffer = "" := (String.append_eq_empty_iff.mp hkept).2
  refine placedUpTo_of_told ?_ hbuffer
  unfold initial startIn
  rw [hfold]
  exact .nil

variable {name : String} {language : Language} (hc : compileLanguage name language = .ok s.arena)
  (htiles : TilesParts s.arena)

include hseparate hregular hundisturbed hc htiles

/-- What a round passes is where it belongs. -/
theorem placed_turn (hin : InStep s r) (h : PlacedUpTo s r placed) {first : Nat}
    {notes : List HookNote} (hl : lookUp s r = .ok (some m, first))
    (hstep : step s m (r.atRule first) = ⟨notes, .ok r'⟩) :
    PlacedUpTo s r' (placed ++ placesOfRound s r r') ∧ InStep s r' := by
  have hinRule : InStep s (r.atRule first) := hin.congr rfl rfl
  have hrule : PlacedUpTo s (r.atRule first) placed := h.congr rfl rfl rfl
  have hplaced := placed_step hseparate hregular hundisturbed hinRule hrule
    (htiles _ _ _ _ _ _ hl)
  have hkeeps := inStep_step hc hinRule fun id hk => begins_lt_size hc hin hl hk
  refine ⟨?_, hkeeps.1 r' (by rw [hstep])⟩
  unfold placesOfRound
  rw [hl]
  exact hplaced.1 r' (by rw [hstep])

omit hregular hundisturbed hc htiles in
/-- What is left of a text belongs to the modes that are open at last. -/
theorem placed_complete (hin : InStep s r) (h : PlacedUpTo s r placed) (notes : List HookNote)
    (hfault : (complete s notes r).fault = none) :
    Forall₂ (Under s.arena) (eventsLeaves [] [] (complete s notes r).events)
      (placed ++ placesOf s.arena r.frames (s.text.slice r.index s.text.size)) := by
  have hheld : InStep s (r.hold (s.text.slice r.index s.text.size)) := hin.congr rfl rfl
  have hflush := placed_flush hseparate hheld (h.hold _)
  unfold complete at hfault ⊢
  simp only at hfault ⊢
  split
  · rename_i more r1 hflushed
    show Forall₂ _ (r1.emit .finish).leaves _
    rw [leaves_emit_silent r1 fun _ => rfl]
    exact (hflush.1 r1 (by rw [hflushed])).1
  · rename_i more f hflushed
    rw [hflushed] at hfault
    cases hfault

/-- **What the rest of a run tells is where it belongs.** -/
theorem placed_scan (fuel n : Nat) (notes : List HookNote) (hin : InStep s r)
    (h : PlacedUpTo s r placed) (hfault : (scan s fuel n notes r).fault = none) :
    Forall₂ (Under s.arena) (eventsLeaves [] [] (scan s fuel n notes r).events)
      (placed ++ placesFrom s fuel n r) := by
  induction fuel generalizing n notes r placed with
  | zero => cases hfault
  | succ fuel ih =>
    unfold scan at hfault ⊢
    unfold placesFrom
    cases hturn : turn s (n + 1) r with
    | next more r' =>
      rw [hturn] at hfault
      obtain ⟨m, first, hl, hstep, _, _⟩ := turn_next hturn
      obtain ⟨hplaced, hin'⟩ :=
        placed_turn hseparate hregular hundisturbed hc htiles hin h hl hstep
      have hrest := ih (n + 1) _ hin' hplaced hfault
      rw [List.append_assoc] at hrest
      exact hrest
    | last more r' =>
      rw [hturn] at hfault
      have hlast : PlacedUpTo s r' (placed ++ placesOfRound s r r') ∧ InStep s r' := by
        rcases turn_last hturn with ⟨first, hl, _, rfl⟩ | ⟨m, first, hl, hstep, _⟩
        · have hnothing : placesOfRound s r (r.atRule first) = [] := by
            unfold placesOfRound
            rw [hl]
          rw [hnothing, List.append_nil]
          exact ⟨h.congr rfl rfl rfl, hin.congr rfl rfl⟩
        · exact placed_turn hseparate hregular hundisturbed hc htiles hin h hl hstep
      have hdone := placed_complete hseparate hlast.2 hlast.1 _ hfault
      rw [List.append_assoc] at hdone
      exact hdone
    | broken more f =>
      rw [hturn] at hfault
      cases hfault

/-- **What a completed run tells is where it belongs.** -/
theorem placed_scanAll (continuation : Option (List Nat))
    (hfault : (scanAll s continuation).fault = none) :
    Forall₂ (Under s.arena) (eventsLeaves [] [] (scanAll s continuation).events)
      (places s continuation) :=
  placed_scan hseparate hregular hundisturbed hc htiles _ 0 [] (inStep_initial hc continuation)
    (placed_initial continuation) hfault

end Steps

end Highlight.Scan
