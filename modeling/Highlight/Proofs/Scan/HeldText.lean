import Highlight.Proofs.Scan.KeptText

/-!
# What is held back is a piece of the text

Where no flags have a delimiter read twice and held back both times, the text that is held back is
always one piece of the text that has been passed, up to the next character. It begins at the start
of the text only as long as no block of another language has been told.

* `ReadsOnce` -- flags that hold no delimiter back that is read again;
* `Held` -- a piece of the text up to an index is held back;
* `Held.hold`, `Held.restart`, `Held.told` -- what becomes of it;
* `blocks_tellKeywords`, `blocks_tellParts`, `blocks_startMode`, `blocks_closeFrames` -- what tells
  no block of another language.
-/

namespace Highlight.Scan

open Highlight.Arena (ArenaMode ModeKeywords RuleMatch)
open Highlight.Grammar (HookData)
open Highlight.Regex (Span)

/-- **Flags that hold no delimiter back that is read again**: what is read again is neither skipped
    nor left outside. -/
structure ReadsOnce (arena : Arena) : Prop where
  returnBegin : ∀ id, (arena.mode id).returnBegin = true →
    (arena.mode id).skip = false ∧ (arena.mode id).excludeBegin = false
  returnEnd : ∀ id, (arena.mode id).returnEnd = true → (arena.mode id).endScope = none →
    (arena.mode id).skip = false ∧ (arena.mode id).excludeEnd = false

/-! ## 1. Pieces of the text -/

/-- **A piece of the text up to an index is held back**, the whole of it only where no block has
    been told. -/
def Held (text : Text) (r : Run) (i : Nat) : Prop :=
  ∃ j ≤ i, r.buffer = text.slice j i ∧ (j = 0 → r.blocks = .empty)

variable {s : Scene} {text : Text} {r r' : Run} {m : RuleMatch} {i j k : Nat}

theorem Held.congr (h : Held text r i) (hbuffer : r'.buffer = r.buffer)
    (hblocks : r'.blocks = r.blocks) : Held text r' i := by
  unfold Held
  rw [hbuffer, hblocks]
  exact h

theorem Held.hold (h : Held text r i) (hik : i ≤ k) : Held text (r.hold (text.slice i k)) k := by
  obtain ⟨j, hj, hbuffer, hblocks⟩ := h
  refine ⟨j, Nat.le_trans hj hik, ?_, hblocks⟩
  show r.buffer ++ text.slice i k = _
  rw [hbuffer, Text.slice_append text hj hik]

/-- What was held back is dropped, and a later piece takes its place. -/
theorem Held.restart (h : Held text r i) (hij : i ≤ j) (hjk : j ≤ k)
    (hbuffer : r'.buffer = text.slice j k) (hblocks : r'.blocks = r.blocks) :
    Held text r' k := by
  obtain ⟨j0, hj0, _, hempty⟩ := h
  refine ⟨j, hjk, hbuffer, fun hj => ?_⟩
  rw [hblocks]
  exact hempty (by omega)

/-- What was held back is told. -/
theorem Held.told (h : Held text r i) (hik : i ≤ k) (hbuffer : r'.buffer = "")
    (hblocks : r'.blocks = r.blocks) : Held text r' k :=
  h.restart hik (Nat.le_refl k) (by rw [hbuffer, Text.slice_self]) hblocks

/-- Once something that was held back has been handed on, what is held back does not begin at the
    start. -/
theorem Held.handed (h : Held text r i) (hne : r.buffer ≠ "") (hbuffer : r'.buffer = "") :
    Held text r' i := by
  obtain ⟨j, hj, heq, _⟩ := h
  refine ⟨i, Nat.le_refl i, by rw [hbuffer, Text.slice_self], fun hi => ?_⟩
  have hji : j = i := by omega
  rw [heq, hji, Text.slice_self] at hne
  exact absurd rfl hne

theorem held_passChar (h : Held s.text r i) :
    Held s.text (passChar s i r) (passChar s i r).index := h.hold (Nat.le_succ i)

theorem held_turnDown (h : Held s.text r m.span.start) :
    Held s.text (turnDown s m r) (turnDown s m r).index :=
  turnDown_of (P := fun r' => Held s.text r' r'.index) (held_passChar h) h

/-! ## 2. No block is told -/

theorem blocks_emitLabelled (r : Run) (arena : Arena) (t label : String) :
    (r.emitLabelled arena t label).blocks = r.blocks := by
  unfold Run.emitLabelled
  split <;> rfl

theorem blocks_tellWord (s : Scene) (k : ModeKeywords) (text : Text) (t : Telling) (m : Span) :
    (tellWord s k text t m).run.blocks = t.run.blocks := by
  unfold tellWord
  simp only
  split
  · rfl
  · split
    · rfl
    · exact blocks_emitLabelled ..

theorem blocks_tellKeywords (s : Scene) (t : String) (r : Run) :
    (tellKeywords s t r).blocks = r.blocks := by
  have hfold : ∀ (k : ModeKeywords) (text : Text) (ms : List Span) (t : Telling),
      (ms.foldl (tellWord s k text) t).run.blocks = t.run.blocks := by
    intro k text ms
    induction ms with
    | nil => exact fun t => rfl
    | cons m ms ih => exact fun t => (ih _).trans (blocks_tellWord s k text t m)
  unfold tellKeywords
  split
  · rfl
  · exact hfold ..

theorem blocks_tellPart (s : Scene) (m : RuleMatch) (r : Run) (part : Nat × Option String) :
    (tellPart s m r part).blocks = r.blocks := by
  unfold tellPart
  split
  · simp only
    split
    · exact blocks_emitLabelled ..
    · exact blocks_tellKeywords ..
  · rfl

theorem blocks_tellParts (s : Scene) (m : RuleMatch) (labels : Dictionary Nat (Option String))
    (r : Run) : (tellParts s m labels r).blocks = r.blocks := by
  unfold tellParts
  induction labels.entries generalizing r with
  | nil => rfl
  | cons part parts ih => exact (ih _).trans (blocks_tellPart s m r part)

theorem blocks_openMode (r : Run) (arena : Arena) (mode : ArenaMode) :
    (r.openMode arena mode).blocks = r.blocks := by
  unfold Run.openMode
  split <;> rfl

theorem blocks_startMode (s : Scene) (id : Nat) (m : RuleMatch) (data : HookData) (r : Run) :
    (startMode s id m data r).blocks = r.blocks := by
  unfold startMode
  simp only
  split
  · rw [blocks_emitLabelled]
    exact blocks_openMode ..
  · show (tellParts s m _ _).blocks = _
    rw [blocks_tellParts]
    exact blocks_openMode ..
  · exact blocks_openMode ..

theorem blocks_closeFrames (arena : Arena) (n : Nat) (ended : Option Nat) (r : Run) :
    (closeFrames arena n ended r).2.blocks = r.blocks := by
  refine closeFrames_of (P := fun r' => r'.blocks = r.blocks) (fun r1 f rest _ h => ?_) n ended rfl
  refine closeFrame_of (P := fun r' => r'.blocks = r.blocks) ?_ fun _ _ h => h
  unfold Run.closeMode
  split
  · exact h
  · exact h

/-! ## 3. Modes open and close -/

/-- **A mode that opens takes what is held back over, or tells or drops it.** -/
theorem held_startMode (h : Held s.text r i) (id : Nat) (m : RuleMatch) (data : HookData) :
    Held s.text (startMode s id m data r) i := by
  have hbuffer : (startMode s id m data r).buffer = "" ∨
      (startMode s id m data r).buffer = r.buffer := by
    unfold startMode
    simp only
    split
    · exact .inl (tells_emitLabelled _ s.arena _ _).buffer
    · exact .inl rfl
    · exact .inr (told_openMode r s.arena (s.arena.mode id)).2
  rcases hbuffer with hempty | hsame
  · exact h.told (Nat.le_refl i) hempty (blocks_startMode s id m data r)
  · exact h.congr hsame (blocks_startMode s id m data r)

theorem held_closeFrames (h : Held s.text r i) (n : Nat) (ended : Option Nat) :
    Held s.text (closeFrames s.arena n ended r).2 i :=
  h.congr (told_closeFrames s.arena n ended r).2 (blocks_closeFrames s.arena n ended r)

/-- A run begins with nothing held back. -/
theorem held_initial (continuation : Option (List Nat)) :
    Held s.text (initial s.arena continuation) (initial s.arena continuation).index := by
  have hblocks : ∀ (ids : List Nat) (r : Run),
      (ids.foldl (fun r id => r.openMode s.arena (s.arena.mode id)) r).blocks = r.blocks := by
    intro ids
    induction ids with
    | nil => exact fun r => rfl
    | cons id ids ih => exact fun r => (ih _).trans (blocks_openMode r s.arena _)
  obtain ⟨hkept, hindex⟩ := kept_initial (s := s) continuation
  rw [hindex]
  refine ⟨0, Nat.le_refl 0, ?_, fun _ => hblocks _ _⟩
  have hall : (initial s.arena continuation).told ++ (initial s.arena continuation).buffer = "" := by
    rw [hkept, Text.slice_self]
  rw [Text.slice_self]
  have hlist := congrArg String.toList hall
  rw [String.toList_append] at hlist
  exact String.toList_eq_nil_iff.mp (List.append_eq_nil_iff.mp hlist).2

end Highlight.Scan
