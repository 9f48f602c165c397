import Highlight.Proofs.Arena.Delimiters
import Highlight.Proofs.Scan.OpenModes

/-!
# What a step does

A step opens a mode, closes some and may start another, or passes on in the modes that are open. The
match decides which, with the hooks and the ends of the open modes. What it adds to the text that is
told or held back can be read off the flags and the labels of these modes.

* `Run.kept` -- the text that a run has told or holds back;
* `Keeps` -- a delegate that answers with the text it was handed;
* `Flushed`, `BeginHeld`, `EndHeld` -- what becomes of what is held back;
* `Opens`, `Opened`, `opened_beginStep` -- a beginning that counts, and the mode that it opens;
* `Closed`, `closed_endStep` -- what an end does that counts;
* `Counts`, `Steps`, `steps_step`, `steps_of_turn` -- **all that a step can do**.
-/

namespace Highlight.Scan

open Highlight.Arena (ArenaMode RuleMatch ScopeEmit Undisturbed)
open Highlight.Grammar (HookData HookNote SubLanguage)
open Highlight.Token (Event textsOf)

/-! ## 1. Text that is told or held back -/

/-- The text that a run has told or holds back. -/
def Run.kept (r : Run) : String := r.told ++ r.buffer

/-- A delegate answers with the text that a mode of the language hands to it. -/
def Keeps (s : Scene) : Prop :=
  ∀ id sub text n, (s.arena.mode id).subLanguage = some sub → s.delegate.Answers sub text n →
    textsOf n.events = text

variable {s : Scene} {r r' : Run} {m : RuleMatch} {mode : ArenaMode} {frames : List Frame}

theorem kept_hold (r : Run) (text : String) : (r.hold text).kept = r.kept ++ text :=
  (String.append_assoc ..).symm

/-- What is held back may be told. -/
theorem kept_of_tells (h : Tells { r with buffer := "" } r' r.buffer) : r'.kept = r.kept := by
  rw [Run.kept, h.told, h.buffer, String.append_empty]
  rfl

/-- Telling text leaves what a run keeps for its next search. -/
theorem piecewise_marks (arena : Arena) :
    Piecewise arena (fun _ => True) fun r r' _ => r'.marks = r.marks where
  refl := fun _ => rfl
  trans := fun h h' => h'.trans h
  text := fun _ _ => rfl
  count := fun _ _ _ _ => rfl
  labelled := fun r t label _ => by
    unfold Run.emitLabelled
    split <;> rfl
  keywords := fun _ _ _ _ _ _ _ => trivial

theorem marks_tellBlock (s : Scene) (sub : SubLanguage) (text : String) (r : Run) :
    (tellBlock s sub text r).Meets (fun r' => r'.marks = r.marks) fun _ => True := by
  unfold tellBlock
  split
  · exact Attempt.meets_pure rfl
  · cases sub with
    | single name =>
      simp only
      split
      · exact Attempt.meets_pure rfl
      · exact Attempt.meets_bind (Attempt.meets_any _) fun n _ => Attempt.meets_pure rfl
    | list names => exact Attempt.meets_bind (Attempt.meets_any _) fun n _ => Attempt.meets_pure rfl
    | any => exact Attempt.meets_bind (Attempt.meets_any _) fun n _ => Attempt.meets_pure rfl

theorem marks_flush (s : Scene) (r : Run) :
    (flush s r).Meets (fun r' => r'.marks = r.marks) fun _ => True := by
  exact meets_flush_of (fun sub _ => marks_tellBlock s sub _ _)
    fun _ => (piecewise_marks s.arena).tellKeywords r.buffer { r with buffer := "" }

/-- **What has been held back is told**, and a run stays where it is. -/
structure Flushed (s : Scene) (r r' : Run) : Prop where
  frames : r'.frames = r.frames
  marks : r'.marks = r.marks
  buffer : r'.buffer = ""
  told : Keeps s → r'.told = r.kept

theorem Flushed.kept (h : Flushed s r r') (hkeeps : Keeps s) : r'.kept = r.kept := by
  rw [Run.kept, h.told hkeeps, h.buffer, String.append_empty]

theorem flushed_flush (s : Scene) (r : Run) : (flush s r).Meets (Flushed s r) fun _ => True := by
  have hmarks := marks_flush s r
  refine ⟨fun r' hr' => ?_, fun _ _ => trivial⟩
  obtain ⟨t, ht, htold⟩ := (meets_flush s r).1 r' hr'
  refine ⟨ht.frames, hmarks.1 r' hr', ht.buffer, fun hkeeps => ?_⟩
  have hbuffer : t = r.buffer := by
    rcases htold with heq | ⟨sub, n, hsub, hanswer, heq⟩
    · exact heq
    · exact heq.trans (hkeeps _ sub r.buffer n hsub hanswer)
  rw [ht.told, hbuffer]
  rfl

/-! ## 2. Modes open -/

theorem told_openMode (r : Run) (arena : Arena) (mode : ArenaMode) :
    (r.openMode arena mode).told = r.told ∧ (r.openMode arena mode).buffer = r.buffer := by
  unfold Run.openMode
  cases mode.scope with
  | none => exact ⟨rfl, rfl⟩
  | some label =>
    refine ⟨?_, rfl⟩
    rw [Run.told_emit]
    exact String.append_empty ..

theorem marks_startMode (s : Scene) (id : Nat) (m : RuleMatch) (data : HookData) (r : Run) :
    (startMode s id m data r).marks = r.marks := by
  have hopen : (r.openMode s.arena (s.arena.mode id)).marks = r.marks := by
    unfold Run.openMode
    split <;> rfl
  unfold startMode
  simp only
  split
  · rename_i label _
    exact ((piecewise_marks s.arena).labelled { r.openMode s.arena (s.arena.mode id) with buffer := "" }
      _ label trivial).trans hopen
  · rename_i labels _
    exact ((piecewise_marks s.arena).tellParts m labels _ fun _ _ _ => trivial).trans hopen
  · exact hopen

/-- **A mode that opens tells what is held back, or leaves it.** One whose delimiter is labelled by
    group tells these groups instead. -/
theorem kept_startMode (s : Scene) (id : Nat) (m : RuleMatch) (data : HookData) (r : Run) :
    (∀ labels, (s.arena.mode id).beginScope = some (.parts labels) →
      (startMode s id m data r).kept = r.told ++ partsText s m labels.entries) ∧
    ((∀ labels, (s.arena.mode id).beginScope ≠ some (.parts labels)) →
      (startMode s id m data r).kept = r.kept) := by
  obtain ⟨htold, hbuffer⟩ := told_openMode r s.arena (s.arena.mode id)
  have hopen : (r.openMode s.arena (s.arena.mode id)).kept = r.kept := by
    rw [Run.kept, htold, hbuffer]
    rfl
  unfold startMode
  simp only
  split
  · rename_i label hscope
    rw [hscope]
    refine ⟨fun _ h => (by cases h), fun _ => ?_⟩
    have ht := tells_emitLabelled { r.openMode s.arena (s.arena.mode id) with buffer := "" }
      s.arena (r.openMode s.arena (s.arena.mode id)).buffer label
    exact (kept_of_tells ht).trans hopen
  · rename_i labels hscope
    rw [hscope]
    refine ⟨fun labels' h => ?_, fun h => absurd rfl (h labels)⟩
    cases h
    have ht := tells_tellParts s m labels (r.openMode s.arena (s.arena.mode id))
    show (tellParts s m labels (r.openMode s.arena (s.arena.mode id))).told ++ "" = _
    rw [ht.told, String.append_empty, htold]
  · rename_i hscope
    rw [hscope]
    exact ⟨fun _ h => (by cases h), fun _ => hopen⟩

/-- Whether a mode leaves its beginning to be read again and neither tells it nor holds it back. -/
def leavesBegin (mode : ArenaMode) : Bool := mode.returnBegin && !mode.skip && !mode.excludeBegin

/-- The text that the beginning of a mode adds. -/
def beginText (s : Scene) (id : Nat) (m : RuleMatch) : String :=
  match (s.arena.mode id).beginScope with
  | some (.parts labels) => partsText s m labels.entries
  | _ => if leavesBegin (s.arena.mode id) then "" else lexeme s m

/-- **The text before a beginning has been told**, and the beginning is told, held back or left. -/
structure BeginHeld (s : Scene) (mode : ArenaMode) (text : String) (r r' : Run) : Prop where
  frames : r'.frames = r.frames
  marks : r'.marks = r.marks
  kept : Keeps s → r'.kept = r.kept ++ if leavesBegin mode then "" else text
  told : Keeps s → mode.skip = false ∧ mode.excludeBegin = false ∧ mode.returnBegin = false →
    r'.told = r.kept

theorem beginHeld_holdBegin (s : Scene) (mode : ArenaMode) (text : String) (r : Run) :
    (holdBegin s mode text r).Meets (BeginHeld s mode text r) fun _ => True := by
  refine meets_holdBegin
    (fun hskip => ⟨rfl, rfl, fun _ => ?_, fun _ h => absurd h.1 (by simp [hskip])⟩)
    (fun _ => flushed_flush s _) fun hskip r1 hr1 => ?_
  · rw [kept_hold]
    simp [leavesBegin, hskip]
  · cases hexclude : mode.excludeBegin with
    | true =>
      rw [hexclude] at hr1
      simp only [Bool.or_true, if_true]
      refine ⟨hr1.frames, hr1.marks, fun hkeeps => ?_,
        fun _ h => absurd h.2.1 (by simp [hexclude])⟩
      simp only [leavesBegin, hexclude, hr1.kept hkeeps, Bool.not_true, Bool.and_false,
        Bool.false_eq_true, if_false]
      exact kept_hold r text
    | false =>
      rw [hexclude] at hr1
      cases hreturn : mode.returnBegin with
      | true =>
        refine ⟨hr1.frames, hr1.marks, fun hkeeps => ?_,
          fun _ h => absurd h.2.2 (by simp [hreturn])⟩
        simp only [leavesBegin, hreturn, hskip, hexclude, Bool.not_false, Bool.and_self, if_true]
        exact (hr1.kept hkeeps).trans (String.append_empty ..).symm
      | false =>
        refine ⟨hr1.frames, hr1.marks, fun hkeeps => ?_, fun hkeeps _ => ?_⟩
        · simp only [leavesBegin, hreturn, Bool.false_and, Bool.false_eq_true, if_false]
          exact congrArg (· ++ text) (hr1.told hkeeps)
        · exact hr1.told hkeeps

/-- **A mode has opened.** -/
structure Opened (s : Scene) (id : Nat) (m : RuleMatch) (data : HookData) (r r' : Run) : Prop where
  frames : r'.frames = ⟨id, data⟩ :: r.frames
  index : r'.index = if (s.arena.mode id).returnBegin then m.span.start else m.span.stop
  marks : r'.marks = r.marks
  kept : Keeps s → Undisturbed (s.arena.mode id) → r'.kept = r.kept ++ beginText s id m

/-- **The beginning of a mode opens it if it counts**, and is turned down else. -/
theorem opened_beginStep (s : Scene) (id : Nat) (m : RuleMatch) (r : Run) :
    (beginStep s id m r).Meets
      (fun r' => (∃ data, Opens s id m data ∧ Opened s id m data r r') ∨
        (¬ ∃ data, Opens s id m data) ∧ r' = turnDown s m r) fun _ => True := by
  refine meets_beginStep (fun hnot => .inr ⟨hnot, rfl⟩) (fun _ _ => trivial)
    (fun _ => beginHeld_holdBegin s (s.arena.mode id) (lexeme s m) r)
    fun data r1 hopens hr1 => .inl ⟨data, hopens, ?_⟩
  refine ⟨(frames_startMode s id m data r1).trans (congrArg _ hr1.frames), rfl,
    (marks_startMode s id m data r1).trans hr1.marks, fun hkeeps hundisturbed => ?_⟩
  obtain ⟨hparts, hothers⟩ := kept_startMode s id m data r1
  show (startMode s id m data r1).kept = _
  unfold beginText
  split
  · rename_i labels hlabels
    rw [hparts labels hlabels, hr1.told hkeeps (hundisturbed.begins labels hlabels)]
  · rename_i hnone
    rw [hothers hnone, hr1.kept hkeeps]

/-! ## 3. Modes close -/

/-- Whether a mode leaves its end to be read again and neither tells it nor holds it back. -/
def leavesEnd (mode : ArenaMode) : Bool := mode.returnEnd && !mode.skip && !mode.excludeEnd

/-- The text that the end of a mode adds. -/
def endText (s : Scene) (mode : ArenaMode) (m : RuleMatch) : String :=
  match mode.endScope with
  | some (.wrap _) => lexeme s m
  | some (.parts labels) => partsText s m labels.entries
  | none => if leavesEnd mode then "" else lexeme s m

/-- Whether a mode holds its end back. -/
def holdsEnd (mode : ArenaMode) : Bool := mode.endScope.isNone && (mode.skip || mode.excludeEnd)

/-- **The text before an end has been told**, and the end is told, held back or left. -/
structure EndHeld (s : Scene) (mode : ArenaMode) (m : RuleMatch) (r r' : Run) : Prop where
  frames : r'.frames = r.frames
  marks : r'.marks = r.marks
  kept : Keeps s → r'.kept = r.kept ++ endText s mode m
  buffer : holdsEnd mode = false → r'.buffer = ""
  held : Keeps s → holdsEnd mode = true → r'.told = if mode.skip then r.told else r.kept

theorem endHeld_holdEnd (s : Scene) (mode : ArenaMode) (m : RuleMatch) (r : Run) :
    (holdEnd s mode m r).Meets (EndHeld s mode m r) fun _ => True := by
  refine meets_holdEnd (fun _ => flushed_flush s r) (fun label hscope r1 hr1 => ?_)
    (fun labels hscope r1 hr1 => ?_)
    (fun hscope hskip => ⟨rfl, rfl, fun _ => ?_, fun h => ?_, fun _ _ => by rw [hskip]; rfl⟩)
    (fun _ _ => flushed_flush s _) fun hscope hskip r1 hr1 => ?_
  · have ht := tells_emitLabelled r1 s.arena (lexeme s m) label
    refine ⟨ht.frames.trans hr1.frames,
      ((piecewise_marks s.arena).labelled r1 (lexeme s m) label trivial).trans hr1.marks,
      fun hkeeps => ?_, fun _ => ht.buffer.trans hr1.buffer, fun _ h => ?_⟩
    · rw [Run.kept, ht.told, ht.buffer, hr1.buffer, String.append_empty, hr1.told hkeeps, endText,
        hscope]
    · simp [holdsEnd, hscope] at h
  · have ht := tells_tellParts s m labels r1
    refine ⟨ht.frames.trans hr1.frames,
      ((piecewise_marks s.arena).tellParts m labels r1 fun _ _ _ => trivial).trans hr1.marks,
      fun hkeeps => ?_, fun _ => rfl, fun _ h => ?_⟩
    · show (tellParts s m labels r1).told ++ "" = _
      rw [ht.told, String.append_empty, hr1.told hkeeps, endText, hscope]
    · simp [holdsEnd, hscope] at h
  · rw [kept_hold]
    simp [endText, leavesEnd, hscope, hskip]
  · simp [holdsEnd, hscope, hskip] at h
  · cases hexclude : mode.excludeEnd with
    | true =>
      rw [hexclude, Bool.or_true] at hr1
      refine ⟨hr1.frames, hr1.marks, fun hkeeps => ?_, fun h => ?_,
        fun hkeeps _ => by rw [hskip]; exact hr1.told hkeeps⟩
      · simp only [endText, leavesEnd, hscope, hexclude, Bool.not_true, Bool.and_false,
          Bool.false_eq_true, if_false]
        exact congrArg (· ++ lexeme s m) (hr1.told hkeeps)
      · simp [holdsEnd, hscope, hexclude] at h
    | false =>
      have hholds : holdsEnd mode = false := by simp [holdsEnd, hskip, hexclude]
      rw [hexclude, Bool.or_false] at hr1
      cases hreturn : mode.returnEnd with
      | true =>
        rw [hreturn] at hr1
        refine ⟨hr1.frames, hr1.marks, fun hkeeps => ?_, fun _ => hr1.buffer,
          fun _ h => absurd h (by simp [hholds])⟩
        simp only [endText, leavesEnd, hscope, hreturn, hskip, hexclude, Bool.not_false,
          Bool.and_self, if_true]
        exact (hr1.kept hkeeps).trans (String.append_empty ..).symm
      | false =>
        rw [hreturn] at hr1
        refine ⟨hr1.frames, hr1.marks, fun hkeeps => ?_, fun _ => hr1.buffer,
          fun _ h => absurd h (by simp [hholds])⟩
        simp only [endText, leavesEnd, hscope, hreturn, Bool.false_and, Bool.false_eq_true, if_false]
        exact (hr1.kept hkeeps).trans (kept_hold r _)

theorem told_closeFrames (arena : Arena) (n : Nat) (ended : Option Nat) (r : Run) :
    (closeFrames arena n ended r).2.told = r.told ∧
      (closeFrames arena n ended r).2.buffer = r.buffer := by
  refine closeFrames_of (P := fun r' => r'.told = r.told ∧ r'.buffer = r.buffer)
    (fun r1 f rest _ h => ?_) n ended ⟨rfl, rfl⟩
  refine closeFrame_of (P := fun r' => r'.told = r.told ∧ r'.buffer = r.buffer) ?_ fun _ _ h => h
  unfold Run.closeMode
  split
  · refine ⟨?_, h.2⟩
    rw [Run.told_emit]
    exact (String.append_empty ..).trans h.1
  · exact h

/-- Closing modes leaves the others. -/
theorem marks_closeFrames (arena : Arena) (n : Nat) (ended : Option Nat) (r : Run) :
    (closeFrames arena n ended r).2.marks = r.marks := by
  refine closeFrames_of (P := fun r' => r'.marks = r.marks) (fun r1 f rest _ h => ?_) n ended rfl
  refine closeFrame_of (P := fun r' => r'.marks = r.marks) ?_ fun _ _ h => h
  unfold Run.closeMode
  split
  · exact h
  · exact h

theorem frames_closeFrames (arena : Arena) (n : Nat) (ended : Option Nat) (r : Run) :
    (closeFrames arena n ended r).2.frames = r.frames.drop n := by
  induction n generalizing ended r with
  | zero => rfl
  | succ n ih =>
    unfold closeFrames
    cases hf : r.frames with
    | nil => exact hf.trans List.drop_nil.symm
    | cons f rest =>
      have hrest := ih (some f.mode) (closeFrame arena f { r with frames := rest })
      rw [frames_closeFrame] at hrest
      exact hrest

/-- The last mode that is closed is the frame that many further out. -/
theorem ended_closeFrames (arena : Arena) (n : Nat) (ended : Option Nat) (r : Run)
    (hn : n < r.frames.length) :
    (closeFrames arena (n + 1) ended r).1 = r.frames[n]?.map (·.mode) := by
  induction n generalizing ended r with
  | zero =>
    cases hf : r.frames with
    | nil =>
      rw [hf] at hn
      cases hn
    | cons f rest => simp [closeFrames, hf]
  | succ n ih =>
    cases hf : r.frames with
    | nil =>
      rw [hf] at hn
      cases hn
    | cons f rest =>
      have hframes : (closeFrame arena f { r with frames := rest }).frames = rest :=
        frames_closeFrame arena f _
      unfold closeFrames
      simp only [hf]
      rw [ih _ _ (by rw [hframes]; simpa [hf] using hn), hframes, List.getElem?_cons_succ]

/-- With an open mode that closes at least this one closes. -/
theorem pos_closingWith (arena : Arena) (f : Frame) (rest : List Frame) :
    ∃ k, closingWith arena (f :: rest) = k + 1 := by
  unfold closingWith
  split
  · exact ⟨_, rfl⟩
  · exact ⟨0, rfl⟩

/-- An end closes at least one mode. -/
theorem pos_endOf (s : Scene) (m : RuleMatch) (frames : List Frame) :
    (endOf s m frames).Meets (fun answer => ∀ n, answer.1 = some n → 0 < n) (StepFails s) := by
  induction frames with
  | nil => exact Attempt.meets_pure fun n hn => by cases hn
  | cons f rest ih =>
    unfold endOf
    refine Attempt.meets_bind (meets_askEnd f.mode m f.data) fun reply _ => ?_
    obtain ⟨counts, data⟩ := reply
    simp only
    split
    · refine Attempt.meets_pure fun n hn => ?_
      cases hn
      obtain ⟨k, hk⟩ := pos_closingWith s.arena { f with data } rest
      rw [hk]
      exact Nat.succ_pos k
    · split
      · refine Attempt.meets_bind ih fun answer _ => Attempt.meets_pure fun n hn => ?_
        obtain ⟨k, _, rfl⟩ := Option.map_eq_some_iff.mp hn
        exact Nat.succ_pos k
      · exact Attempt.meets_pure fun n hn => by cases hn

theorem topId_congr {frames frames' : List Frame}
    (h : frames.map (·.mode) = frames'.map (·.mode)) : s.topId frames = s.topId frames' := by
  unfold Scene.topId
  cases frames with
  | nil =>
    cases frames' with
    | nil => rfl
    | cons f' rest' => cases h
  | cons f rest =>
    cases frames' with
    | nil => cases h
    | cons f' rest' => exact (List.cons.inj h).1

/-- The mode that is started when as many of the innermost modes close: the outermost of them says
    which. -/
def startedBy (s : Scene) (frames : List Frame) (n : Nat) : Option Nat :=
  frames[n - 1]?.bind fun f => (s.arena.mode f.mode).starts

/-- The last mode that is closed says which one is started. -/
theorem started_closeFrames {n : Nat} (hpos : 0 < n) (hle : n ≤ r.frames.length) :
    (closeFrames s.arena n none r).1.bind (fun id => (s.arena.mode id).starts) =
      startedBy s r.frames n := by
  obtain ⟨k, rfl⟩ : ∃ k, n = k + 1 := ⟨n - 1, by omega⟩
  rw [ended_closeFrames s.arena k none r (Nat.lt_of_succ_le hle), startedBy, Nat.add_sub_cancel]
  exact Option.bind_map ..

/-- The text that a mode adds where it is started: its delimiter, if this is labelled by group. -/
def startText (s : Scene) (m : RuleMatch) : Option Nat → String
  | none => ""
  | some next =>
    match (s.arena.mode next).beginScope with
    | some (.parts labels) => partsText s m labels.entries
    | _ => ""

/-- The open modes with one that has been started. -/
def startedIn (frames : List Frame) : Option Nat → List Frame
  | none => frames
  | some next => ⟨next, .empty⟩ :: frames

/-- **The innermost modes have closed**, as many as `n` says. A mode that is started and has its
    delimiter labelled by group drops what the innermost mode holds back of its end. -/
structure Closed (s : Scene) (m : RuleMatch) (n : Nat) (asked : List Frame) (r r' : Run) :
    Prop where
  frames : r'.frames = startedIn (asked.drop n) (startedBy s asked n)
  index : r'.index = if (s.top r).returnEnd then m.span.start else m.span.stop
  marks : r'.marks = r.marks
  kept : Keeps s → (∀ next labels, startedBy s asked n = some next →
      (s.arena.mode next).beginScope = some (.parts labels) → holdsEnd (s.top r) = false) →
    r'.kept = r.kept ++ endText s (s.top r) m ++ startText s m (startedBy s asked n)
  dropped : Keeps s → holdsEnd (s.top r) = true → ∀ next labels, startedBy s asked n = some next →
    (s.arena.mode next).beginScope = some (.parts labels) →
    r'.kept = (if (s.top r).skip then r.told else r.kept) ++ partsText s m labels.entries

/-- **The innermost modes have closed**, and no other one has been started for them yet. -/
structure Cleared (s : Scene) (m : RuleMatch) (n : Nat) (asked : List Frame) (r r' : Run) :
    Prop where
  frames : r'.frames = asked.drop n
  marks : r'.marks = r.marks
  kept : Keeps s → r'.kept = r.kept ++ endText s (s.top r) m
  buffer : holdsEnd (s.top r) = false → r'.buffer = ""
  told : Keeps s → holdsEnd (s.top r) = true →
    r'.told = if (s.top r).skip then r.told else r.kept

section Closing

variable {n next : Nat} {asked : List Frame}

theorem cleared_closeFrames (n : Nat) (htop : s.top { r with frames := asked } = s.top r)
    (h : EndHeld s (s.top { r with frames := asked }) m { r with frames := asked } r') :
    Cleared s m n asked r (closeFrames s.arena n none r').2 := by
  obtain ⟨htold, hbuffer⟩ := told_closeFrames s.arena n none r'
  rw [htop] at h
  refine ⟨?_, (marks_closeFrames s.arena n none r').trans h.marks, fun hkeeps => ?_,
    fun hholds => hbuffer.trans (h.buffer hholds), fun hkeeps hholds => htold.trans (h.held hkeeps hholds)⟩
  · rw [frames_closeFrames, h.frames]
  · rw [Run.kept, htold, hbuffer]
    exact h.kept hkeeps

theorem Cleared.closed (h : Cleared s m n asked r r') (hnone : startedBy s asked n = none) :
    Closed s m n asked r
      { r' with index := if (s.top r).returnEnd then m.span.start else m.span.stop } := by
  refine ⟨?_, rfl, h.marks, fun hkeeps _ => ?_, fun _ _ next _ hnext => ?_⟩
  · rw [hnone]
    exact h.frames
  · rw [hnone]
    exact (h.kept hkeeps).trans (String.append_empty ..).symm
  · cases hnone.symm.trans hnext

theorem Cleared.started (h : Cleared s m n asked r r') (hnext : startedBy s asked n = some next) :
    Closed s m n asked r { (startMode s next m .empty r') with
      index := if (s.top r).returnEnd then m.span.start else m.span.stop } := by
  obtain ⟨hparts, hothers⟩ := kept_startMode s next m .empty r'
  refine ⟨?_, rfl, (marks_startMode s next m .empty _).trans h.marks, fun hkeeps hheld => ?_,
    fun hkeeps hholds next' labels hnext' hlabels => ?_⟩
  · rw [hnext]
    exact (frames_startMode s next m .empty _).trans (congrArg _ h.frames)
  · show (startMode s next m .empty r').kept = _
    have hended := h.kept hkeeps
    rw [hnext]
    unfold startText
    simp only
    split
    · rename_i labels hlabels
      rw [Run.kept, h.buffer (hheld next labels hnext hlabels), String.append_empty] at hended
      rw [hparts labels hlabels, hended]
    · rename_i hnone
      rw [hothers hnone, hended, String.append_empty]
  · cases hnext.symm.trans hnext'
    refine (hparts labels hlabels).trans (congrArg (· ++ partsText s m labels.entries) ?_)
    exact h.told hkeeps hholds

end Closing

/-- What is open when an end closes modes. -/
theorem facts_of_ended {n : Nat} {frames : List Frame}
    (h : (endOf s m r.frames).result = .ok (some n, frames)) :
    s.top { r with frames } = s.top r ∧ 0 < n ∧ n ≤ frames.length := by
  obtain ⟨hmodes, hle⟩ := (meets_endOf s m r.frames).1 _ h
  refine ⟨congrArg s.arena.mode (topId_congr hmodes), (pos_endOf s m r.frames).1 _ h n rfl, ?_⟩
  have hlength : frames.length = r.frames.length := by simpa using congrArg List.length hmodes
  exact hlength ▸ hle n rfl

/-- **An end closes modes if it counts for one of them**, and is passed by one character else. -/
theorem closed_endStep (s : Scene) (m : RuleMatch) (r : Run) :
    (endStep s m r).Meets
      (fun r' => (∃ n frames, (endOf s m r.frames).result = .ok (some n, frames) ∧
          Closed s m n frames r r') ∨
        ∃ frames, (endOf s m r.frames).result = .ok (none, frames) ∧
          r' = passChar s m.span.start { r with frames }) fun _ => True := by
  have hstarted : ∀ {n : Nat} {frames : List Frame} {r1 : Run},
      (endOf s m r.frames).result = .ok (some n, frames) → r1.frames = frames →
      (closeFrames s.arena n none r1).1.bind (fun id => (s.arena.mode id).starts) =
        startedBy s frames n := by
    rintro n _ r1 ha rfl
    obtain ⟨_, hpos, hn⟩ := facts_of_ended ha
    exact started_closeFrames hpos hn
  refine meets_endStep (Attempt.meets_result _) (fun frames ha => .inr ⟨frames, ha, rfl⟩)
    (fun n frames _ => endHeld_holdEnd s _ m { r with frames })
    (fun n frames r1 ha hr1 hnone => .inl ⟨n, frames, ha, ?_⟩)
    fun n frames r1 next ha hr1 hnext => .inl ⟨n, frames, ha, ?_⟩
  · obtain ⟨htop, _⟩ := facts_of_ended ha
    rw [htop]
    exact (cleared_closeFrames n htop hr1).closed ((hstarted ha hr1.frames).symm.trans hnone)
  · obtain ⟨htop, _⟩ := facts_of_ended ha
    rw [htop]
    exact (cleared_closeFrames n htop hr1).started ((hstarted ha hr1.frames).symm.trans hnext)

/-! ## 4. All that a step can do -/

/-- **A match counts**: a beginning that does, or an end that counts for one of the open
    modes and does not follow its beginning at once. -/
inductive Counts (s : Scene) (m : RuleMatch) (r : Run) : Prop
  | begins {id : Nat} {data : HookData} : m.kind = .begins id → Opens s id m data → Counts s m r
  | ends {n : Nat} {frames : List Frame} : m.kind = .ends → isEmptyMode m r.last = false →
      (endOf s m r.frames).result = .ok (some n, frames) → Counts s m r

/-- What a run has told, and what it has counted. -/
structure Account where
  events : List Event
  relevance : Nat
  hits : Dictionary String Nat
  blocks : Dictionary String (List Nat)

def Run.account (r : Run) : Account := ⟨r.events, r.relevance, r.hits, r.blocks⟩

/-- **A step has passed on** in the modes that are open, and holds back what it has passed; the hooks
    of these modes may have been asked. -/
structure Passed (s : Scene) (m : RuleMatch) (r r' : Run) : Prop where
  frames : r'.frames = r.frames ∨ (endOf s m r.frames).result = .ok (none, r'.frames)
  index : m.span.start ≤ r'.index
  buffer : r'.buffer = r.buffer ++ s.text.slice r.index r'.index
  account : r'.account = r.account

theorem Passed.kept (h : Passed s m r r') : r'.kept = r.kept ++ s.text.slice r.index r'.index := by
  have htold : r'.told = r.told := by
    unfold Run.told
    rw [show r'.events = r.events from congrArg Account.events h.account]
  rw [Run.kept, htold, h.buffer, ← String.append_assoc]
  rfl

theorem Passed.modes (h : Passed s m r r') : r'.frames.map (·.mode) = r.frames.map (·.mode) := by
  rcases h.frames with hframes | hasked
  · rw [hframes]
  · exact ((meets_endOf s m r.frames).1 _ hasked).1

/-- **All that a step can do**: open a mode, close some, or pass on. -/
inductive Steps (s : Scene) (m : RuleMatch) (r r' : Run) : Prop
  | opened {id : Nat} {data : HookData} : m.kind = .begins id → Opens s id m data →
      Opened s id m data (r.meet s m) r' → Steps s m r r'
  | closed {n : Nat} {frames : List Frame} : m.kind = .ends → isEmptyMode m r.last = false →
      (endOf s m r.frames).result = .ok (some n, frames) → Closed s m n frames (r.meet s m) r' →
      Steps s m r r'
  | passed : ¬ Counts s m r → Passed s m r r' → Steps s m r r'

section Passing

variable (hi : r.index ≤ m.span.start)

include hi

/-- What is passed behind a match that has been met is held back. -/
theorem passed_hold {r1 : Run} {i : Nat} (hbuffer : r1.buffer = (r.meet s m).buffer)
    (haccount : r1.account = r.account)
    (hframes : r1.frames = r.frames ∨ (endOf s m r.frames).result = .ok (none, r1.frames))
    (hle : m.span.start ≤ i) :
    Passed s m r { r1.hold (s.text.slice m.span.start i) with index := i } := by
  refine ⟨hframes, hle, ?_, haccount⟩
  show r1.buffer ++ s.text.slice m.span.start i = _
  rw [hbuffer, ← Text.slice_append _ hi hle, ← String.append_assoc]
  rfl

theorem passed_turnDown : Passed s m r (turnDown s m (r.meet s m)) :=
  turnDown_of (passed_hold hi rfl rfl (.inl rfl) (Nat.le_succ _)) ⟨.inl rfl, Nat.le_refl _, rfl, rfl⟩

theorem passed_passIllegal (hm : m.span.start ≤ m.span.stop) :
    Passed s m r (passIllegal s m (r.meet s m)) :=
  passIllegal_of (passed_hold hi rfl rfl (.inl rfl) (Nat.le_succ _))
    (passed_hold hi rfl rfl (.inl rfl) hm)

/-- **Every step opens a mode, closes some, or passes on**, as its match counts or not. -/
theorem steps_step (hm : m.span.start ≤ m.span.stop) :
    (step s m r).Meets (Steps s m r) fun _ => True := by
  cases hempty : isEmptyMode m r.last with
  | true =>
    have hends : m.kind = .ends := by
      unfold isEmptyMode at hempty
      split at hempty
      · exact beq_iff_eq.mp (Bool.and_eq_true_iff.mp (Bool.and_eq_true_iff.mp hempty).1).1
      · cases hempty
    rw [step_of_empty hempty]
    split
    · refine Attempt.meets_pure (.passed ?_ (passed_hold hi rfl rfl (.inl rfl) (Nat.le_succ _)))
      rintro (⟨hbegins, _⟩ | ⟨_, hfull, _⟩)
      · cases hends.symm.trans hbegins
      · cases hempty.symm.trans hfull
    · exact Attempt.meets_fail trivial
  | false =>
    rw [step_of_not_empty hempty]
    unfold act
    split
    · rename_i id hbegins
      refine Attempt.meets_mono (opened_beginStep s id m (r.meet s m)) (fun r' hr' => ?_)
        fun _ _ => trivial
      rcases hr' with ⟨data, hopens, hopened⟩ | ⟨hnot, rfl⟩
      · exact .opened hbegins hopens hopened
      · refine .passed ?_ (passed_turnDown hi)
        rintro (⟨hbegins', hopens⟩ | ⟨hends, _⟩)
        · cases hbegins.symm.trans hbegins'
          exact hnot ⟨_, hopens⟩
        · cases hbegins.symm.trans hends
    · rename_i hends
      refine Attempt.meets_mono (closed_endStep s m (r.meet s m)) (fun r' hr' => ?_)
        fun _ _ => trivial
      rcases hr' with ⟨n, frames, hanswer, hclosed⟩ | ⟨frames, hanswer, rfl⟩
      · exact .closed hends hempty hanswer hclosed
      · refine .passed ?_ (passed_hold hi rfl rfl (.inr hanswer) (Nat.le_succ _))
        rintro (⟨hbegins, _⟩ | ⟨_, _, hanswer'⟩)
        · cases hends.symm.trans hbegins
        · cases hanswer.symm.trans hanswer'
    · rename_i hillegal
      split
      · refine Attempt.meets_pure (.passed ?_ (passed_passIllegal hi hm))
        rintro (⟨hbegins, _⟩ | ⟨hends, _⟩)
        · cases hillegal.symm.trans hbegins
        · cases hillegal.symm.trans hends
      · exact Attempt.meets_fail trivial

end Passing

/-- **A round after which a run goes on has found a match**, and has opened a mode, closed some, or
    passed on. -/
theorem steps_of_turn {steps : Nat} {notes : List HookNote} (h : turn s steps r = .next notes r') :
    ∃ m first, lookUp s r = .ok (some m, first) ∧ r.index ≤ m.span.start ∧
      m.span.start ≤ m.span.stop ∧ Steps s m (r.atRule first) r' := by
  obtain ⟨m, first, hl, hstep, _⟩ := turn_next h
  have hfinds := Arena.finds_next hl
  exact ⟨m, first, hl, hfinds.from_le, hfinds.ordered,
    (steps_step (r := r.atRule first) hfinds.from_le hfinds.ordered).1 r' (by rw [hstep])⟩

end Highlight.Scan
