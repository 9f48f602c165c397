import Highlight.Proofs.Arena.WellFormed
import Highlight.Proofs.Scan.KeptText
import Highlight.Proofs.Scan.OpenModes
import Highlight.Proofs.Text.Boundaries

/-!
# Nothing is read out of range

The steps of a run cut slices out of the text and out of what is held back, and look modes up on a
stack, the root at its bottom. Here the same is done with every slice by byte offsets and every
place of the stack by its depth, where both can be missing; and they never are.

* `tellWord?`, `tellKeywords?`, `tellPart?`, `tellParts?`, `passChar?` -- slices that are checked;
* `Scene.stackOf`, `outermost?`, `endAt?`, `endStep?` -- places of the stack that are checked;
* `tellKeywords?_eq`, `tellParts?_eq`, `passChar?_eq`, `endStep?_eq` -- nothing is missing;
* `Scene.asked`, `Driven` -- runs in which hooks and nested runs answer anything at any time;
* `nothing_out_of_range` -- all of it, before every round of such a run.
-/

namespace Highlight.Scan

open Highlight.Arena (ArenaMode ModeKeywords RuleMatch WellFormed compileLanguage)
open Highlight.Grammar (Hook HookData HookNote Language)
open Highlight.Highlighter (passes exists_of_passes)
open Highlight.Regex (Span)

variable {s : Scene} {r r' : Run} {m : RuleMatch}

/-! ## 1. Words -/

/-- Tells one word, with both slices that it takes of the text checked. -/
def tellWord? (s : Scene) (k : ModeKeywords) (text : Text) (t : Telling) (span : Span) :
    Option Telling := do
  let _ ← text.slice? (text.byteOffset t.upTo) (text.byteOffset span.start)
  let _ ← text.slice? (text.byteOffset span.start) (text.byteOffset span.stop)
  return tellWord s k text t span

/-- Tells text, with every slice that it takes of it checked, the rest behind the last word
    included. -/
def tellKeywords? (s : Scene) (buffer : String) (r : Run) : Option Run :=
  match (s.top r).keywords with
  | none => some (r.emitText buffer)
  | some k => do
    let text := Text.ofString buffer
    let t ← (identifiers k.regex text).foldlM (tellWord? s k text) ⟨r, "", 0⟩
    let rest ← text.slice? (text.byteOffset t.upTo) (text.byteOffset text.size)
    return t.run.emitText (t.pending ++ rest)

theorem upTo_tellWord (s : Scene) (k : ModeKeywords) (text : Text) (t : Telling) (span : Span) :
    (tellWord s k text t span).upTo = span.stop := by
  unfold tellWord
  simp only
  split
  · rfl
  · split <;> rfl

theorem foldlM_tellWord? (s : Scene) (k : ModeKeywords) (text : Text) {spans : List Span}
    {t : Telling} (hle : t.upTo ≤ text.size) (h : InOrder text t.upTo spans) :
    spans.foldlM (tellWord? s k text) t = some (spans.foldl (tellWord s k text) t) ∧
      (spans.foldl (tellWord s k text) t).upTo ≤ text.size := by
  induction spans generalizing t with
  | nil => exact ⟨rfl, hle⟩
  | cons span spans ih =>
    obtain ⟨hfrom, hordered, hstop, hrest⟩ := h
    have hword : tellWord? s k text t span = some (tellWord s k text t span) := by
      unfold tellWord?
      rw [Text.slice?_byteOffset text hfrom (Nat.le_trans hordered hstop),
        Text.slice?_byteOffset text hordered hstop]
      rfl
    have hupTo := upTo_tellWord s k text t span
    rw [List.foldlM_cons, hword]
    exact ih (by rw [hupTo]; exact hstop) (by rw [hupTo]; exact hrest)

/-- **Telling text takes no slice that is not there.** -/
theorem tellKeywords?_eq (s : Scene) (buffer : String) (r : Run) :
    tellKeywords? s buffer r = some (tellKeywords s buffer r) := by
  unfold tellKeywords? tellKeywords
  cases (s.top r).keywords with
  | none => rfl
  | some k =>
    have horder : InOrder (Text.ofString buffer) 0 (identifiers k.regex (Text.ofString buffer)) :=
      inOrder_identifiersFrom k.regex (Text.ofString buffer) _ 0
    obtain ⟨hfold, hupTo⟩ := foldlM_tellWord? s k (Text.ofString buffer) (t := ⟨r, "", 0⟩)
      (Nat.zero_le _) horder
    simp only [hfold, Option.bind_eq_bind, Option.bind_some,
      Text.slice?_byteOffset _ hupTo (Nat.le_refl _), Option.pure_def]

/-! ## 2. What a match has read -/

/-- Tells one group of a delimiter, with the slice that it has read checked. -/
def tellPart? (s : Scene) (m : RuleMatch) (r : Run) (part : Nat × Option String) : Option Run :=
  match m.groups[part.1]? with
  | some (some span) => do
    let text ← s.text.slice? (s.text.byteOffset span.start) (s.text.byteOffset span.stop)
    match part.2 with
    | some label => return r.emitLabelled s.arena text label
    | none => tellKeywords? s text r
  | _ => some r

/-- Tells the groups of a delimiter, with the slices that they have read checked. -/
def tellParts? (s : Scene) (m : RuleMatch) (labels : Dictionary Nat (Option String)) (r : Run) :
    Option Run :=
  labels.entries.foldlM (tellPart? s m) r

theorem tellPart?_eq (hm : ∀ span, some span ∈ m.groups → span.Within s.text) (r : Run)
    (part : Nat × Option String) : tellPart? s m r part = some (tellPart s m r part) := by
  unfold tellPart? tellPart
  cases hgroup : m.groups[part.1]? with
  | none => rfl
  | some group =>
    cases group with
    | none => rfl
    | some span =>
      obtain ⟨hordered, hstop⟩ := hm span (List.mem_of_getElem? hgroup)
      simp only [Text.slice?_byteOffset _ hordered hstop, Option.bind_eq_bind, Option.bind_some]
      cases part.2 with
      | some label => rfl
      | none => exact tellKeywords?_eq s _ r

/-- **Telling the groups of a delimiter takes no slice that is not there.** -/
theorem tellParts?_eq (hm : ∀ span, some span ∈ m.groups → span.Within s.text)
    (labels : Dictionary Nat (Option String)) (r : Run) :
    tellParts? s m labels r = some (tellParts s m labels r) := by
  unfold tellParts? tellParts
  induction labels.entries generalizing r with
  | nil => rfl
  | cons part parts ih =>
    rw [List.foldlM_cons, tellPart?_eq hm]
    exact ih _

/-- Passes the character at a byte offset, reckoning in bytes: where there is none the end is passed,
    by one. The next index has to be that of the offset behind. -/
def passChar? (s : Scene) (i : Nat) (r : Run) : Option Run := do
  let here := s.text.byteOffset i
  let behind := s.text.nextBoundary here
  let passed ←
    if here = s.text.byteOffset s.text.size then some "" else s.text.slice? here behind
  if s.text.byteOffset (s.text.indexAt behind) = behind then
    return { (r.hold passed) with index := s.text.indexAt behind }
  else none

/-- **Passing a character takes no slice that is not there.** -/
theorem passChar?_eq {i : Nat} (hi : i ≤ s.text.size) (r : Run) :
    passChar? s i r = some (passChar s i r) := by
  unfold passChar? passChar
  simp only [Text.nextBoundary_byteOffset _ hi, Text.indexAt_byteOffset, ↓reduceIte]
  by_cases hend : i = s.text.size
  · have hempty : s.text.slice i (i + 1) = "" := Text.slice_of_size_le _ (Nat.le_of_eq hend.symm)
    rw [hempty, hend, if_pos rfl]
    rfl
  · have hlt : i < s.text.size := by omega
    have hne : s.text.byteOffset i ≠ s.text.byteOffset s.text.size := by
      intro heq
      have hindex := congrArg s.text.indexAt heq
      rw [Text.indexAt_byteOffset, Text.indexAt_byteOffset] at hindex
      exact hend hindex
    rw [if_neg hne, Text.slice?_byteOffset _ (Nat.le_succ i) hlt]
    rfl

/-! ## 3. The stack -/

/-- The open modes as a stack: the root at the bottom, then the frames, the innermost last. -/
def Scene.stackOf (s : Scene) (frames : List Frame) : List Frame :=
  ⟨s.arena.root, .empty⟩ :: frames.reverse

/-- The depth of the outermost mode that closes with the one at a depth: modes that end their parent
    take the next one along, but not the root. -/
def outermost? (s : Scene) (stack : List Frame) : Nat → Option Nat
  | 0 => some 0
  | 1 => some 1
  | depth + 2 => do
    let f ← stack[depth + 2]?
    if (s.arena.mode f.mode).endsParent then outermost? s stack (depth + 1) else return depth + 2

/-- The depth of the outermost mode that an end closes while the mode at a depth is looked at, and
    the stack with what hooks keep now; nothing where there is no mode at a depth. -/
def endAt? (s : Scene) (m : RuleMatch) (depth : Nat) (stack : List Frame) :
    Attempt (Option (Option Nat × List Frame)) :=
  match stack[depth]? with
  | none => pure none
  | some f => do
    let mode := s.arena.mode f.mode
    let (counts, data) ← askEnd s mode m f.data
    let stack := stack.set depth { f with data }
    if counts then return (outermost? s stack depth).map (some ·, stack)
    else
      match depth with
      | 0 => return some (none, stack)
      | depth + 1 =>
        if mode.endsWithParent then endAt? s m depth stack else return some (none, stack)

/-- An end has matched, with the depths of the stack that are looked at checked. The modes that close
    are those from a depth on, which has to be above the root. -/
def endStep? (s : Scene) (m : RuleMatch) (r : Run) : Attempt (Option Run) := do
  let stack := s.stackOf r.frames
  match ← endAt? s m (stack.length - 1) stack with
  | none => return none
  | some (none, stack) =>
    return some (passChar s m.span.start { r with frames := (stack.drop 1).reverse })
  | some (some depth, stack) =>
    let r := { r with frames := (stack.drop 1).reverse }
    let mode := s.top r
    let r ← holdEnd s mode m r
    match depth, stack[depth]? with
    | _ + 1, some ended =>
      let r := (closeFrames s.arena (stack.length - depth) none r).2
      let r := match (s.arena.mode ended.mode).starts with
        | some next => startMode s next m .empty r
        | none => r
      return some { r with index := if mode.returnEnd then m.span.start else m.span.stop }
    | _, _ => return none

@[simp] theorem length_stackOf (s : Scene) (frames : List Frame) :
    (s.stackOf frames).length = frames.length + 1 := by
  simp [Scene.stackOf]

/-- The frames of a stack. -/
@[simp] theorem drop_stackOf (s : Scene) (frames : List Frame) :
    ((s.stackOf frames).drop 1).reverse = frames := by
  simp [Scene.stackOf]

/-- The mode at the depth of the first of some frames is that frame. -/
theorem getElem?_stackOf (s : Scene) (inner : List Frame) (f : Frame) (outer : List Frame) :
    (s.stackOf (inner ++ f :: outer))[outer.length + 1]? = some f := by
  simp [Scene.stackOf]

theorem set_stackOf (s : Scene) (inner : List Frame) (f f' : Frame) (outer : List Frame) :
    (s.stackOf (inner ++ f :: outer)).set (outer.length + 1) f' =
      s.stackOf (inner ++ f' :: outer) := by
  simp [Scene.stackOf]

theorem outermost?_stackOf (s : Scene) (inner : List Frame) (f : Frame) (outer : List Frame) :
    outermost? s (s.stackOf (inner ++ f :: outer)) (outer.length + 1) =
      some (outer.length + 2 - closingWith s.arena (f :: outer)) := by
  induction outer generalizing inner f with
  | nil => simp [outermost?, closingWith]
  | cons g outer ih =>
    have hf := getElem?_stackOf s inner f (g :: outer)
    have hg := ih (inner ++ [f]) g
    rw [List.append_assoc, List.singleton_append] at hg
    rw [List.length_cons] at hf ⊢
    unfold outermost? closingWith
    simp only [hf, Option.bind_eq_bind, Option.bind_some, List.isEmpty_cons, Bool.not_false,
      Bool.and_true]
    split
    · rw [hg]
      congr 1
      omega
    · rfl

/-- The root has no end of its own. -/
theorem askEnd_root (hw : WellFormed s.arena) (m : RuleMatch) (data : HookData) :
    askEnd s (s.arena.mode s.arena.root) m data = pure (false, data) := by
  have hend : endsAt s (s.arena.mode s.arena.root) m.span.start = false := by
    unfold endsAt
    rw [hw.endless.2.1]
    rfl
  unfold askEnd
  rw [hend]
  rfl

/-- What the walk over the frames answers, as the walk down the stack does. -/
def Scene.depthsOf (s : Scene) (inner : List Frame) (length : Nat)
    (answer : Option Nat × List Frame) : Option Nat × List Frame :=
  (answer.1.map (length + 1 - ·), s.stackOf (inner ++ answer.2))

/-- **The walk down the stack finds a mode at every depth**, and what the walk over the frames does. -/
theorem endAt?_eq (hw : WellFormed s.arena) (m : RuleMatch) (inner outer : List Frame) :
    endAt? s m outer.length (s.stackOf (inner ++ outer)) = (do
      let answer ← endOf s m outer
      return some (s.depthsOf inner outer.length answer)) := by
  induction outer generalizing inner with
  | nil =>
    have hbottom : (s.stackOf (inner ++ []))[0]? = some ⟨s.arena.root, .empty⟩ := rfl
    unfold endAt? endOf
    simp only [List.length_nil, hbottom, askEnd_root hw, pure_bind, Bool.false_eq_true, ↓reduceIte]
    rfl
  | cons f outer ih =>
    unfold endAt? endOf
    simp only [List.length_cons, getElem?_stackOf, bind_assoc]
    congr 1
    funext reply
    obtain ⟨counts, data⟩ := reply
    have hnext := ih (inner ++ [{ f with data }])
    rw [List.append_assoc, List.singleton_append] at hnext
    simp only [set_stackOf, outermost?_stackOf]
    split
    · rfl
    · split
      · rw [hnext]
        simp only [bind_assoc, pure_bind]
        congr 1
        funext answer
        obtain ⟨count, rest⟩ := answer
        cases count <;> simp [Scene.depthsOf]
      · rfl

/-- The frame that many further out stands at a depth of the stack. -/
theorem getElem?_stackOf_depth (s : Scene) (frames : List Frame) {n : Nat} (hn : n < frames.length) :
    (s.stackOf frames)[frames.length - n]? = frames[n]? := by
  obtain ⟨depth, hdepth⟩ : ∃ depth, frames.length - n = depth + 1 :=
    ⟨frames.length - n - 1, by omega⟩
  rw [hdepth, Scene.stackOf, List.getElem?_cons_succ, List.getElem?_reverse (by omega)]
  congr 1
  omega

/-- **An end looks no mode up that is not on the stack**: not while it is asked which modes it closes,
    nor when the last of them is, which is never the root. -/
theorem endStep?_eq (hw : WellFormed s.arena) (m : RuleMatch) (r : Run) :
    endStep? s m r = (do return some (← endStep s m r)) := by
  have hwalk := endAt?_eq hw m [] r.frames
  rw [List.nil_append] at hwalk
  unfold endStep? endStep
  simp only [length_stackOf, Nat.add_sub_cancel, hwalk, bind_assoc, pure_bind]
  refine Attempt.bind_congr (Attempt.meets_and (meets_endOf s m r.frames) (pos_endOf s m r.frames))
    fun answer hanswer => ?_
  obtain ⟨count, frames⟩ := answer
  obtain ⟨⟨hmodes, hle⟩, hpos⟩ := hanswer
  have hlength : frames.length = r.frames.length := by
    simpa using congrArg List.length hmodes
  cases count with
  | none => simp only [Scene.depthsOf, Option.map_none, List.nil_append, drop_stackOf, pure_bind]
  | some n =>
    have hn := hpos n rfl
    have hn' := hle n rfl
    obtain ⟨k, rfl⟩ : ∃ k, n = k + 1 := ⟨n - 1, by omega⟩
    have hk : k < frames.length := by omega
    have hdepth : r.frames.length + 1 - (k + 1) = frames.length - k - 1 + 1 := by omega
    have hmode := getElem?_stackOf_depth s frames hk
    have hclosed : frames.length + 1 - (frames.length - k - 1 + 1) = k + 1 := by omega
    rw [show frames.length - k = frames.length - k - 1 + 1 by omega,
      List.getElem?_eq_getElem hk] at hmode
    simp only [Scene.depthsOf, Option.map_some, List.nil_append, drop_stackOf, hdepth, hmode,
      length_stackOf, hclosed, bind_assoc]
    refine Attempt.bind_congr (frames_holdEnd s _ m { r with frames }) fun r1 hr1 => ?_
    have hended := ended_closeFrames s.arena k none r1 (by rw [hr1]; exact hk)
    rw [hr1, List.getElem?_eq_getElem hk] at hended
    simp only [hended, Option.map_some, Option.bind_some]
    exact (pure_bind (m := Attempt) _ _).symm

/-! ## 4. Where a step leads -/

/-- **A step leads on**: to the start of its match, to its end, or one character behind its start. -/
def LeadsOn (m : RuleMatch) (r : Run) : Prop :=
  r.index = m.span.start ∨ r.index = m.span.stop ∨ r.index = m.span.start + 1

theorem leadsOn_passChar (s : Scene) (m : RuleMatch) (r : Run) :
    LeadsOn m (passChar s m.span.start r) := .inr (.inr rfl)

theorem leadsOn_turnDown (s : Scene) (m : RuleMatch) (r : Run) : LeadsOn m (turnDown s m r) :=
  turnDown_of (leadsOn_passChar s m r) (.inl rfl)

theorem leadsOn_of_ite {m : RuleMatch} {b : Bool} {r : Run}
    (h : r.index = if b then m.span.start else m.span.stop) : LeadsOn m r := by
  cases b
  · exact .inr (.inl h)
  · exact .inl h

theorem leadsOn_beginStep (s : Scene) (id : Nat) (m : RuleMatch) (r : Run) :
    (beginStep s id m r).Meets (LeadsOn m) (StepFails s) := by
  exact meets_beginStep (fun _ => leadsOn_turnDown s m r) (meets_askHook? id m _ .inl).2
    (fun _ => frames_holdBegin s _ _ r) fun _ _ _ _ => leadsOn_of_ite rfl

theorem leadsOn_endStep (s : Scene) (m : RuleMatch) (r : Run) :
    (endStep s m r).Meets (LeadsOn m) (StepFails s) := by
  exact meets_endStep (meets_endOf s m r.frames) (fun _ _ => leadsOn_passChar s m _)
    (fun _ frames _ => frames_holdEnd s _ m { r with frames })
    (fun _ _ _ _ _ _ => leadsOn_of_ite rfl) fun _ _ _ _ _ _ _ => leadsOn_of_ite rfl

theorem leadsOn_step (s : Scene) (m : RuleMatch) (r : Run) :
    (step s m r).Meets (LeadsOn m) (StepFails s) := by
  exact meets_step (leadsOn_passChar s m _) (.zeroWidth _) (fun id _ => leadsOn_beginStep s id m _)
    (fun _ => leadsOn_endStep s m _)
    (fun _ => passIllegal_of (leadsOn_passChar s m _) (.inr (.inl rfl))) (.illegal _ _ _)

/-- Where modes are in range, those that are open after a step are. -/
theorem inRange_of_moves (hw : WellFormed s.arena) {stack stack' : List Nat}
    (h : ∀ id ∈ stack, id < s.arena.modes.size)
    (hbegins : ∀ id, m.kind = .begins id → id < s.arena.modes.size)
    (hm : Moves s.arena m stack stack') : ∀ id ∈ stack', id < s.arena.modes.size := by
  intro id hid
  cases hm with
  | stays => exact h id hid
  | begins hkind =>
    rcases List.mem_append.mp hid with hid | hid
    · exact h id hid
    · rw [List.mem_singleton.mp hid]
      exact hbegins _ hkind
  | ends heq =>
    rw [heq] at h
    exact h id (List.mem_append_left _ hid)
  | starts heq hstarts =>
    rw [heq] at h
    rcases List.mem_append.mp hid with hid | hid
    · exact h id (List.mem_append_left _ hid)
    · rw [List.mem_singleton.mp hid]
      exact hw.starts _ (h _ (List.mem_append_right _ List.mem_cons_self)) _ hstarts

/-! ## 5. One round -/

/-- **A match is handled in range**: it lies in the text behind the index of the run, every slice that
    is taken for it is there, and so is every mode that is looked up for it. -/
structure HandledInRange (s : Scene) (m : RuleMatch) (r : Run) : Prop where
  from_le : r.index ≤ m.span.start
  ordered : m.span.start ≤ m.span.stop
  stop_le : m.span.stop ≤ s.text.size
  /-- The text up to the match, from the index on and from its beginning on. -/
  before : s.text.slice? (s.text.byteOffset r.index) (s.text.byteOffset m.span.start) =
    some (s.text.slice r.index m.span.start)
  beginning : s.text.slice? 0 (s.text.byteOffset m.span.start) =
    some (s.text.slice 0 m.span.start)
  /-- What the match has read, which ends by its size behind where it begins. -/
  lexeme : s.text.slice? (s.text.byteOffset m.span.start) (s.text.byteOffset m.span.stop) =
    some (lexeme s m)
  size : s.text.byteOffset m.span.start + (Scan.lexeme s m).utf8ByteSize =
    s.text.byteOffset m.span.stop
  parts : ∀ labels r', tellParts? s m labels r' = some (tellParts s m labels r')
  passed : ∀ r', passChar? s m.span.start r' = some (passChar s m.span.start r')
  begins : ∀ id, m.kind = .begins id → id < s.arena.modes.size
  ends : ∀ r', endStep? s m r' = (do return some (← endStep s m r'))
  /-- What is shown if the match is of something forbidden. -/
  forbidden : ∀ cause, let place := IllegalBy.ofFault (s.fault cause m.span.start) s.text.toStr
    s.text.isBoundary place.index = true ∧
      ∃ b e, b ≤ place.index ∧ place.index ≤ e ∧ s.text.slice? b e = some place.context

/-- **Before a round everything is in range**: the index, which the round does not take back and only
    a last round takes beyond the end; the open modes, also after the round; what is read for the
    match that is found; and what is read of text that is told. -/
structure InRange (s : Scene) (steps : Nat) (r : Run) : Prop where
  index_le : r.index ≤ s.text.size
  boundary : s.text.isBoundary (s.text.byteOffset r.index) = true
  modes : ∀ id ∈ s.stack r.frames, id < s.arena.modes.size
  handled : ∀ m first, lookUp s r = .ok (some m, first) → HandledInRange s m (r.atRule first)
  words : ∀ buffer r', tellKeywords? s buffer r' = some (tellKeywords s buffer r')
  next : ∀ notes r', turn s (steps + 1) r = .next notes r' → r.index ≤ r'.index ∧
    r'.index ≤ s.text.size ∧ ∀ id ∈ s.stack r'.frames, id < s.arena.modes.size
  last : ∀ notes r', turn s (steps + 1) r = .last notes r' → r.index ≤ r'.index ∧
    r'.index ≤ s.text.size + 1 ∧ ∀ id ∈ s.stack r'.frames, id < s.arena.modes.size

theorem topId_lt (hmodes : ∀ id ∈ s.stack r.frames, id < s.arena.modes.size) :
    s.topId r.frames < s.arena.modes.size :=
  hmodes _ (List.mem_of_getLast? (getLast?_stack s r.frames))

theorem handledInRange (hw : WellFormed s.arena)
    (hmodes : ∀ id ∈ s.stack r.frames, id < s.arena.modes.size) {first : Nat}
    (hl : lookUp s r = .ok (some m, first)) : HandledInRange s m (r.atRule first) := by
  have hfinds := Arena.finds_next hl
  have hstart : m.span.start ≤ s.text.size := Nat.le_trans hfinds.ordered hfinds.stop_le
  have hzero : s.text.byteOffset 0 = 0 := by
    unfold Text.byteOffset
    cases s.text.toList <;> rfl
  exact {
    from_le := hfinds.from_le
    ordered := hfinds.ordered
    stop_le := hfinds.stop_le
    before := Text.slice?_byteOffset _ hfinds.from_le hstart
    beginning := by
      have h := Text.slice?_byteOffset s.text (Nat.zero_le m.span.start) hstart
      rw [hzero] at h
      exact h
    lexeme := Text.slice?_byteOffset _ hfinds.ordered hfinds.stop_le
    size := Text.byteOffset_add_slice _ hfinds.ordered hfinds.stop_le
    parts := tellParts?_eq hfinds.groups
    passed := passChar?_eq hstart
    begins := fun id hid => by
      obtain ⟨rule, hrule, hkind⟩ := hfinds.kind
      exact hw.begins _ (topId_lt hmodes) rule hrule id (hkind.trans hid)
    ends := endStep?_eq hw m
    forbidden := fun cause => by
      obtain ⟨hindex, b, e, hb, he, hcontext⟩ :=
        context_ofFault s.text (s.fault cause m.span.start) hstart rfl
      simp only [hindex]
      exact ⟨Text.isBoundary_byteOffset _ hstart, b, e, hb, he, hcontext⟩ }

/-- What is in range before a match is handled is so after it. -/
theorem inRange_step (hw : WellFormed s.arena) {first : Nat} {notes : List HookNote}
    (hmodes : ∀ id ∈ s.stack r.frames, id < s.arena.modes.size)
    (hl : lookUp s r = .ok (some m, first))
    (hstep : step s m (r.atRule first) = ⟨notes, .ok r'⟩) : r.index ≤ r'.index ∧
      r'.index ≤ s.text.size + 1 ∧ ∀ id ∈ s.stack r'.frames, id < s.arena.modes.size := by
  have hhandled := handledInRange hw hmodes hl
  have hleads := (leadsOn_step s m (r.atRule first)).1 r' (by rw [hstep])
  have hmoves := (moves_step s m (r.atRule first)).1 r' (by rw [hstep])
  have hfrom : r.index ≤ m.span.start := hhandled.from_le
  have hordered := hhandled.ordered
  have hstop := hhandled.stop_le
  refine ⟨?_, ?_, inRange_of_moves hw hmodes hhandled.begins hmoves⟩
  · rcases hleads with h | h | h <;> omega
  · rcases hleads with h | h | h <;> omega

/-- **Where the index and the open modes are in range everything is.** -/
theorem inRange (hw : WellFormed s.arena) (hindex : r.index ≤ s.text.size)
    (hmodes : ∀ id ∈ s.stack r.frames, id < s.arena.modes.size) (steps : Nat) :
    InRange s steps r where
  index_le := hindex
  boundary := Text.isBoundary_byteOffset _ hindex
  modes := hmodes
  handled := fun m first hl => handledInRange hw hmodes hl
  words := tellKeywords?_eq s
  next := fun notes r' hturn => by
    obtain ⟨m, first, hl, hstep, _, hle⟩ := turn_next hturn
    obtain ⟨hfrom, _, hmodes'⟩ := inRange_step hw hmodes hl hstep
    exact ⟨hfrom, hle, hmodes'⟩
  last := fun notes r' hturn => by
    rcases turn_last hturn with ⟨first, _, _, rfl⟩ | ⟨m, first, hl, hstep, _⟩
    · exact ⟨Nat.le_refl _, Nat.le_succ_of_le hindex, hmodes⟩
    · exact inRange_step hw hmodes hl hstep

/-! ## 6. Whatever is answered -/

/-- What is answered at some time: by the hooks of each mode, and by nested runs; and what the hooks of
    each open mode have kept. -/
structure Answers where
  onBegin : Nat → Option Hook
  onEnd : Nat → Option Hook
  delegate : Delegate
  kept : Nat → HookData

/-- A scene in which hooks and nested runs answer so. -/
def Scene.asked (s : Scene) (a : Answers) : Scene :=
  { s with
    arena := { s.arena with
      modes := s.arena.modes.mapIdx fun id mode =>
        { mode with onBegin := a.onBegin id, onEnd := a.onEnd id } }
    delegate := a.delegate }

/-- A run in which hooks have kept so. -/
def Run.asked (r : Run) (a : Answers) : Run :=
  { r with frames := r.frames.mapIdx fun i f => { f with data := a.kept i } }

/-- **The states of a run in which hooks and nested runs answer anything at any time**, between its
    rounds: before each round all that they go by may change. -/
inductive Driven (s : Scene) (continuation : Option (List Nat)) : Nat → Run → Prop
  | start : Driven s continuation 0 (initial s.arena continuation)
  | next {n : Nat} {r r' : Run} {notes : List HookNote} (a : Answers) : Driven s continuation n r →
      turn (s.asked a) (n + 1) (r.asked a) = .next notes r' → Driven s continuation (n + 1) r'

/-- A mode whose hooks answer so. -/
theorem mode_asked (s : Scene) (a : Answers) (id : Nat) : ∃ onBegin onEnd,
    (s.asked a).arena.mode id = { s.arena.mode id with onBegin, onEnd } := by
  unfold Scene.asked Arena.mode
  simp only [Array.getD_eq_getD_getElem?, Array.getElem?_mapIdx]
  cases s.arena.modes[id]? with
  | none => exact ⟨none, none, rfl⟩
  | some mode => exact ⟨_, _, rfl⟩

theorem size_asked (s : Scene) (a : Answers) :
    (s.asked a).arena.modes.size = s.arena.modes.size := Array.size_mapIdx

theorem wellFormed_asked (hw : WellFormed s.arena) (a : Answers) : WellFormed (s.asked a).arena := by
  have hmode := mode_asked s a
  have hfields : ∀ id, ((s.asked a).arena.mode id).contains = (s.arena.mode id).contains ∧
      ((s.asked a).arena.mode id).starts = (s.arena.mode id).starts ∧
      ((s.asked a).arena.mode id).rules = (s.arena.mode id).rules ∧
      ((s.asked a).arena.mode id).beginSource = (s.arena.mode id).beginSource ∧
      ((s.asked a).arena.mode id).terminator = (s.arena.mode id).terminator ∧
      ((s.asked a).arena.mode id).endRegex = (s.arena.mode id).endRegex ∧
      ((s.asked a).arena.mode id).illegal = (s.arena.mode id).illegal := by
    intro id
    obtain ⟨onBegin, onEnd, h⟩ := hmode id
    rw [h]
    exact ⟨rfl, rfl, rfl, rfl, rfl, rfl, rfl⟩
  have hsize := size_asked s a
  have hroot : (s.asked a).arena.root = s.arena.root := rfl
  refine ⟨hw.root, ?_, ?_, ?_, ?_, ?_, ?_⟩
  · rw [hsize]
    exact hw.size_pos
  · simp only [hsize, (hfields _).1]
    exact hw.contains
  · simp only [hsize, (hfields _).2.1]
    exact hw.starts
  · simp only [hsize, (hfields _).2.2.1]
    exact hw.begins
  · intro id hid
    rw [hsize] at hid
    obtain ⟨hcontains, _, hrules, _, hterminator, _, hillegal⟩ := hfields id
    rw [hrules, hcontains, hterminator, hillegal, hw.rules id hid]
    simp only [(hfields _).2.2.2.1]
  · rw [hroot]
    obtain ⟨_, _, hrules, _, hterminator, hend, _⟩ := hfields s.arena.root
    rw [hterminator, hend, hrules]
    exact hw.endless

@[simp] theorem stack_asked (s : Scene) (r : Run) (a : Answers) :
    (s.asked a).stack (r.asked a).frames = s.stack r.frames := by
  have hmodes : (r.asked a).frames.map (·.mode) = r.frames.map (·.mode) := by
    unfold Run.asked
    apply List.ext_getElem?
    intro i
    simp only [List.getElem?_map, List.getElem?_mapIdx]
    cases r.frames[i]? <;> rfl
  unfold Scene.stack
  rw [hmodes]
  rfl

/-- Hooks and nested runs as they are. -/
def Scene.own (s : Scene) (r : Run) : Answers where
  onBegin := fun id => (s.arena.mode id).onBegin
  onEnd := fun id => (s.arena.mode id).onEnd
  delegate := s.delegate
  kept := fun i => (r.frames[i]?.map (·.data)).getD .empty

theorem asked_own (s : Scene) (r : Run) : s.asked (s.own r) = s ∧ r.asked (s.own r) = r := by
  constructor
  · have hmodes : (s.arena.modes.mapIdx fun id mode =>
        { mode with onBegin := (s.own r).onBegin id, onEnd := (s.own r).onEnd id }) =
        s.arena.modes := by
      apply Array.ext_getElem?
      intro id
      rw [Array.getElem?_mapIdx]
      cases hid : s.arena.modes[id]? with
      | none => rfl
      | some mode =>
        have hmode : s.arena.mode id = mode := by
          rw [Arena.mode, Array.getD_eq_getD_getElem?, hid]
          rfl
        simp only [Scene.own, hmode, Option.map_some]
    unfold Scene.asked
    rw [hmodes]
    rfl
  · have hframes : (r.frames.mapIdx fun i f => { f with data := (s.own r).kept i }) = r.frames := by
      apply List.ext_getElem?
      intro i
      rw [List.getElem?_mapIdx]
      cases hi : r.frames[i]? with
      | none => rfl
      | some f => simp only [Scene.own, hi, Option.map_some, Option.getD_some]
    unfold Run.asked
    rw [hframes]

/-- Runs whose hooks and nested runs answer as they do are among these. -/
theorem driven_of_reached {continuation : Option (List Nat)} {n : Nat}
    (h : Reached s continuation n r) : Driven s continuation n r := by
  induction h with
  | start => exact .start
  | @next n r r' notes _ hturn ih =>
    obtain ⟨hs, hr⟩ := asked_own s r
    exact .next (s.own r) ih (by rw [hs, hr]; exact hturn)

theorem inRange_asked (hw : WellFormed s.arena) (hindex : r.index ≤ s.text.size)
    (hmodes : ∀ id ∈ s.stack r.frames, id < s.arena.modes.size) (a : Answers) (steps : Nat) :
    InRange (s.asked a) steps (r.asked a) :=
  inRange (r := r.asked a) (wellFormed_asked hw a) hindex
    (by rw [stack_asked, size_asked]; exact hmodes) steps

variable {name : String} {language : Language} {continuation : Option (List Nat)} {n : Nat}

/-- **Nothing is read out of range**, whatever the language, the text and the modes that a run begins
    in, and whatever hooks and nested runs have answered before a round and answer in it. -/
theorem nothing_out_of_range (hc : compileLanguage name language = .ok s.arena)
    (h : Driven s continuation n r) (a : Answers) : InRange (s.asked a) n (r.asked a) := by
  have hw := Arena.wellFormed_of_compileLanguage hc
  have hkept : r.index ≤ s.text.size ∧ ∀ id ∈ s.stack r.frames, id < s.arena.modes.size := by
    induction h with
    | start =>
      have hindex := (kept_initial (s := s) continuation).2
      have hvalid := isValidStack_startStack hc continuation
      refine ⟨by omega, fun id hid => ?_⟩
      rw [stack_initial] at hid
      simpa using List.all_eq_true.mp (Bool.and_eq_true_iff.mp hvalid).2 id hid
    | next a _ hturn ih =>
      have hnext := (inRange_asked hw ih.1 ih.2 a _).next _ _ hturn
      rw [size_asked] at hnext
      exact hnext.2
  exact inRange_asked hw hkept.1 hkept.2 a n

/-- The second round of a run over a text with a character of two bytes: it begins behind a quote, at
    the third byte, with a mode open, and reads nothing out of range. -/
theorem quoted_text_in_range : ∃ arena notes r,
    compileLanguage "quoted" Highlighter.quotedLanguage = .ok arena ∧
    turn (aloneIn arena "é\"a") 1 (initial arena none) = .next notes r ∧
    (aloneIn arena "é\"a").text.byteOffset r.index = 3 ∧ r.frames.length = 1 ∧
    ∀ a, InRange ((aloneIn arena "é\"a").asked a) 1 (r.asked a) := by
  have hcheck : passes (compileLanguage "quoted" Highlighter.quotedLanguage) (fun arena =>
      match turn (aloneIn arena "é\"a") 1 (initial arena none) with
      | .next _ r => (aloneIn arena "é\"a").text.byteOffset r.index == 3 && r.frames.length == 1
      | _ => false) = true := by decide +kernel
  obtain ⟨arena, hc, hcheck⟩ := exists_of_passes hcheck
  cases hturn : turn (aloneIn arena "é\"a") 1 (initial arena none) with
  | next notes r =>
    rw [hturn] at hcheck
    simp only [Bool.and_eq_true, beq_iff_eq] at hcheck
    have hreached : Reached (aloneIn arena "é\"a") none 1 r := .next .start hturn
    exact ⟨arena, notes, r, hc, hturn, hcheck.1, hcheck.2,
      nothing_out_of_range hc (driven_of_reached hreached)⟩
  | last notes r =>
    rw [hturn] at hcheck
    cases hcheck
  | broken notes f =>
    rw [hturn] at hcheck
    cases hcheck

end Highlight.Scan
