import Highlight.Proofs.Scan.Steps

/-!
# No text is lost

Text that a run has passed is told or held back. Held-back text moves on through every branch of a
step; where flags would have a delimiter told twice or not at all, the language has to leave them
out.

* `Regular` -- flags that do not contradict each other;
* `PlainParts` -- labels by group where the mode's own delimiter is read;
* `Tiled`, `TilesParts` -- the groups of a delimiter in several parts make it up;
* `KeptUpTo` -- the text up to an index has been told or is held back;
* `Retells`, `told_of_steps` -- a step that tells a delimiter though it is read again, and what all
  steps add;
* `kept_step`, `kept_reached`, `kept_scanAll` -- a step that loses nothing, and whole runs.
-/

namespace Highlight.Scan

open Highlight.Arena (ArenaMode RuleMatch ScopeEmit Undisturbed)
open Highlight.Grammar (HookData HookNote)
open Highlight.Regex (Span)
open Highlight.Token (Event textsOf)

/-! ## 1. What a language has to be like -/

/-- **Flags that do not contradict each other**: what is read again is neither skipped, nor left
    outside, nor labelled, and labels by group stand only where the mode's own delimiter is read. -/
structure Regular (arena : Arena) : Prop where
  returnBegin : ∀ id, (arena.mode id).returnBegin = true →
    (arena.mode id).skip = false ∧ (arena.mode id).excludeBegin = false
  returnEnd : ∀ id, (arena.mode id).returnEnd = true →
    (arena.mode id).skip = false ∧ (arena.mode id).excludeEnd = false ∧
      (arena.mode id).endScope = none
  starts : ∀ id next, (arena.mode id).starts = some next →
    ∀ labels, (arena.mode next).beginScope ≠ some (.parts labels)
  endsWithParent : ∀ id, (arena.mode id).endsWithParent = true →
    ∀ labels, (arena.mode id).endScope ≠ some (.parts labels)
  beginKeywords : ∀ id, (arena.mode id).skipAfterDot = true →
    ∀ labels, (arena.mode id).beginScope ≠ some (.parts labels)

theorem Regular.not_returnBegin {arena : Arena} (h : Regular arena) {id : Nat}
    (hexclude : (arena.mode id).excludeBegin = true) : (arena.mode id).returnBegin = false :=
  Bool.eq_false_iff.mpr fun hr => Bool.false_ne_true ((h.returnBegin id hr).2.symm.trans hexclude)

theorem Regular.not_returnEnd {arena : Arena} (h : Regular arena) {id : Nat}
    (hexclude : (arena.mode id).excludeEnd = true) : (arena.mode id).returnEnd = false :=
  Bool.eq_false_iff.mpr fun hr => Bool.false_ne_true ((h.returnEnd id hr).2.1.symm.trans hexclude)

theorem Regular.not_returnEnd_of_label {arena : Arena} (h : Regular arena) {id : Nat}
    {scope : ScopeEmit} (hscope : (arena.mode id).endScope = some scope) :
    (arena.mode id).returnEnd = false := by
  refine Bool.eq_false_iff.mpr fun hr => ?_
  rw [(h.returnEnd id hr).2.2] at hscope
  cases hscope

/-- **Labels by group stand only where the mode's own delimiter is read**: its beginning by a rule, and
    not where the mode is started; its end not where the mode ends with its parent. -/
structure PlainParts (arena : Arena) : Prop where
  starts : ∀ id next, (arena.mode id).starts = some next →
    ∀ labels, (arena.mode next).beginScope ≠ some (.parts labels)
  endsWithParent : ∀ id, (arena.mode id).endsWithParent = true →
    ∀ labels, (arena.mode id).endScope ≠ some (.parts labels)
  beginKeywords : ∀ id, (arena.mode id).skipAfterDot = true →
    ∀ labels, (arena.mode id).beginScope ≠ some (.parts labels)

theorem Regular.plainParts {arena : Arena} (h : Regular arena) : PlainParts arena :=
  ⟨h.starts, h.endsWithParent, h.beginKeywords⟩

/-- Some groups of a match lie end to end, from one index to another. -/
def Tiled (groups : List (Option Span)) (i j : Nat) : List Nat → Prop
  | [] => i = j
  | part :: parts =>
    ∃ stop, groups[part]? = some (some ⟨i, stop⟩) ∧ i ≤ stop ∧ Tiled groups stop j parts

/-- The groups of a delimiter in several parts make up the match of a rule of a mode. -/
structure PartsTiled (arena : Arena) (id : Nat) (m : RuleMatch) : Prop where
  begins : ∀ next labels, m.kind = .begins next → (arena.mode next).skipAfterDot = false →
    (arena.mode next).beginScope = some (.parts labels) →
    Tiled m.groups m.span.start m.span.stop labels.keys
  ends : ∀ labels, m.kind = .ends → (arena.mode id).endsWithParent = false →
    (arena.mode id).endScope = some (.parts labels) →
    Tiled m.groups m.span.start m.span.stop labels.keys

/-- **The groups that wrap the parts of a delimiter tile its match**, wherever it is found. -/
def TilesParts (arena : Arena) : Prop :=
  ∀ id text i first m k, (arena.mode id).rules.next text i first = .ok (some m, k) →
    PartsTiled arena id m

/-- Modes whose delimiters have no labels. -/
def Unlabelled (arena : Arena) : Prop :=
  ∀ id, (arena.mode id).beginScope = none ∧ (arena.mode id).endScope = none

theorem Unlabelled.plainParts {arena : Arena} (h : Unlabelled arena) : PlainParts arena where
  starts := fun _ next _ _ hlabels => by cases (h next).1.symm.trans hlabels
  endsWithParent := fun id _ _ hlabels => by cases (h id).2.symm.trans hlabels
  beginKeywords := fun id _ _ hlabels => by cases (h id).1.symm.trans hlabels

theorem Unlabelled.tilesParts {arena : Arena} (h : Unlabelled arena) : TilesParts arena :=
  fun id _ _ _ _ _ _ => ⟨fun next _ _ _ hlabels => (by cases (h next).1.symm.trans hlabels),
    fun _ _ _ hlabels => by cases (h id).2.symm.trans hlabels⟩

/-! ## 2. Text that is kept -/

/-- **The text up to an index has been told or is held back.** -/
def KeptUpTo (s : Scene) (r : Run) (i : Nat) : Prop := r.told ++ r.buffer = s.text.slice 0 i

variable {s : Scene} {r r' : Run} {m : RuleMatch} {i j : Nat} {continuation : Option (List Nat)}

/-- The groups of a delimiter in several parts have its text. -/
theorem partsText_of_tiled : ∀ (parts : List (Nat × Option String)) (i : Nat),
    Tiled m.groups i j (parts.map (·.1)) → partsText s m parts = s.text.slice i j ∧ i ≤ j
  | [], i, h => by
      have hij : i = j := h
      rw [hij, Text.slice_self]
      exact ⟨rfl, Nat.le_refl j⟩
  | part :: parts, i, h => by
      obtain ⟨stop, hgroup, hle, hrest⟩ := h
      obtain ⟨htext, hle'⟩ := partsText_of_tiled parts stop hrest
      have hpart : partText s m part.1 = s.text.slice i stop := by
        unfold partText
        rw [hgroup]
      refine ⟨?_, Nat.le_trans hle hle'⟩
      show partText s m part.1 ++ partsText s m parts = _
      rw [hpart, htext, Text.slice_append _ hle hle']

/-! ## 3. Steps -/

/-- Whether a mode tells its beginning, or holds it back, though it is to be read again. -/
def retellsBegin (mode : ArenaMode) : Bool := mode.returnBegin && (mode.skip || mode.excludeBegin)

/-- Whether a mode tells its end, or holds it back, though it is to be read again. -/
def retellsEnd (mode : ArenaMode) : Bool :=
  mode.returnEnd && (mode.skip || mode.excludeEnd || mode.endScope.isSome)

/-- **A step tells a delimiter, or holds it back, and leaves it to be read again**, so that it is told
    once more. -/
inductive Retells (s : Scene) (m : RuleMatch) (r : Run) : Prop
  | begins {id : Nat} {data : HookData} : m.kind = .begins id → Opens s id m data →
      retellsBegin (s.arena.mode id) = true → Retells s m r
  | ends {n : Nat} {frames : List Frame} : m.kind = .ends → isEmptyMode m r.last = false →
      (endOf s m r.frames).result = .ok (some n, frames) → retellsEnd (s.top r) = true →
      Retells s m r

theorem Retells.counts (h : Retells s m r) : Counts s m r := by
  cases h with
  | begins hkind hopens _ => exact .begins hkind hopens
  | ends hkind hempty hanswer _ => exact .ends hkind hempty hanswer

theorem retells_iff_begins {id : Nat} {data : HookData} (hkind : m.kind = .begins id)
    (hopens : Opens s id m data) : Retells s m r ↔ retellsBegin (s.arena.mode id) = true := by
  refine ⟨?_, .begins hkind hopens⟩
  rintro (⟨hkind', _, hretells⟩ | ⟨hends, _⟩)
  · cases hkind.symm.trans hkind'
    exact hretells
  · cases hkind.symm.trans hends

theorem retells_iff_ends {n : Nat} {frames : List Frame} (hkind : m.kind = .ends)
    (hempty : isEmptyMode m r.last = false)
    (hanswer : (endOf s m r.frames).result = .ok (some n, frames)) :
    Retells s m r ↔ retellsEnd (s.top r) = true := by
  refine ⟨?_, .ends hkind hempty hanswer⟩
  rintro (⟨hbegins, _⟩ | ⟨_, _, _, hretells⟩)
  · cases hkind.symm.trans hbegins
  · exact hretells

theorem leavesBegin_and (mode : ArenaMode) :
    (mode.returnBegin && leavesBegin mode) = leavesBegin mode := by
  unfold leavesBegin
  cases mode.returnBegin <;> rfl

theorem retellsBegin_eq (mode : ArenaMode) :
    retellsBegin mode = (mode.returnBegin && !leavesBegin mode) := by
  unfold retellsBegin leavesBegin
  cases mode.returnBegin <;> cases mode.skip <;> cases mode.excludeBegin <;> rfl

theorem leavesEnd_and (mode : ArenaMode) :
    (mode.returnEnd && (leavesEnd mode && mode.endScope.isNone)) =
      (leavesEnd mode && mode.endScope.isNone) := by
  unfold leavesEnd
  cases mode.returnEnd <;> rfl

theorem retellsEnd_eq (mode : ArenaMode) :
    retellsEnd mode = (mode.returnEnd && !(leavesEnd mode && mode.endScope.isNone)) := by
  unfold retellsEnd leavesEnd
  cases mode.returnEnd <;> cases mode.skip <;> cases mode.excludeEnd <;> cases mode.endScope <;> rfl

/-- Flags that do not contradict each other have nothing told twice. -/
theorem Regular.not_retells (h : Regular s.arena) : ¬ Retells s m r := by
  rintro (⟨_, _, hretells⟩ | ⟨_, _, _, hretells⟩)
  · obtain ⟨hreturn, hflags⟩ := Bool.and_eq_true_iff.mp hretells
    obtain ⟨hskip, hexclude⟩ := h.returnBegin _ hreturn
    rw [hskip, hexclude] at hflags
    cases hflags
  · obtain ⟨hreturn, hflags⟩ := Bool.and_eq_true_iff.mp hretells
    obtain ⟨hskip, hexclude, hscope⟩ := h.returnEnd (s.topId r.frames) hreturn
    unfold Scene.top at hflags
    rw [hskip, hexclude, hscope] at hflags
    cases hflags

section Steps

variable (hkeeps : Keeps s) (hparts : PlainParts s.arena)
  (hundisturbed : ∀ id, Undisturbed (s.arena.mode id))

include hparts hundisturbed

/-- A beginning that is told, or held back, adds all that it has read. -/
theorem beginText_eq {id top : Nat} (hid : m.kind = .begins id) (htiled : PartsTiled s.arena top m) :
    beginText s id m = if leavesBegin (s.arena.mode id) then "" else lexeme s m := by
  unfold beginText
  split
  · rename_i labels hlabels
    have hdot : (s.arena.mode id).skipAfterDot = false :=
      Bool.eq_false_iff.mpr fun hd => hparts.beginKeywords id hd labels hlabels
    have hreturn := ((hundisturbed id).begins labels hlabels).2.2
    rw [(partsText_of_tiled _ _ (htiled.begins id labels hid hdot hlabels)).1, leavesBegin, hreturn]
    rfl
  · rfl

omit hundisturbed in
/-- The same of an end. -/
theorem endText_eq {id : Nat} (hkind : m.kind = .ends) (htiled : PartsTiled s.arena id m) :
    endText s (s.arena.mode id) m =
      if leavesEnd (s.arena.mode id) && (s.arena.mode id).endScope.isNone then "" else lexeme s m := by
  unfold endText
  split
  · rename_i hscope
    rw [hscope, Option.isNone_some, Bool.and_false]
    rfl
  · rename_i labels hscope
    have hparent : (s.arena.mode id).endsWithParent = false :=
      Bool.eq_false_iff.mpr fun hp => hparts.endsWithParent id hp labels hscope
    rw [(partsText_of_tiled _ _ (htiled.ends labels hkind hparent hscope)).1, hscope,
      Option.isNone_some, Bool.and_false]
    rfl
  · rename_i hscope
    rw [hscope, Option.isNone_none, Bool.and_true]

omit hundisturbed in
/-- A mode that is started adds nothing. -/
theorem startText_eq (frames : List Frame) (n : Nat) :
    startText s m (startedBy s frames n) = "" ∧ ∀ next labels, startedBy s frames n = some next →
      (s.arena.mode next).beginScope ≠ some (.parts labels) := by
  have hnever : ∀ next labels, startedBy s frames n = some next →
      (s.arena.mode next).beginScope ≠ some (.parts labels) := by
    intro next labels hnext
    obtain ⟨f, _, hstarts⟩ := Option.bind_eq_some_iff.mp hnext
    exact hparts.starts f.mode next hstarts labels
  refine ⟨?_, hnever⟩
  unfold startText
  split
  · rfl
  · rename_i next hnext
    split
    · rename_i labels hlabels
      exact absurd hlabels (hnever next labels hnext)
    · rfl

omit hparts hundisturbed in
/-- A delimiter that is read comes on top of the text before it, unless it is left. -/
theorem told_of_read {returns leaves : Bool} (hi : r.index ≤ m.span.start)
    (hm : m.span.start ≤ m.span.stop)
    (hindex : r'.index = if returns then m.span.start else m.span.stop)
    (hkept : r'.kept = (r.meet s m).kept ++ if returns && leaves then "" else lexeme s m) :
    m.span.start ≤ r'.index ∧
    ((returns && !leaves) = false → r'.kept = r.kept ++ s.text.slice r.index r'.index) ∧
    ((returns && !leaves) = true → r'.index = m.span.start ∧
      r'.kept = r.kept ++ s.text.slice r.index m.span.start ++ lexeme s m) := by
  have hmet : (r.meet s m).kept = r.kept ++ s.text.slice r.index m.span.start := kept_hold r _
  rw [hindex, hkept, hmet]
  cases returns with
  | false =>
    refine ⟨hm, fun _ => ?_, fun h => by cases h⟩
    exact (String.append_assoc ..).trans (congrArg _ (Text.slice_append _ hi hm))
  | true =>
    cases leaves with
    | false => exact ⟨Nat.le_refl _, fun h => (by cases h), fun _ => ⟨rfl, rfl⟩⟩
    | true => exact ⟨Nat.le_refl _, fun _ => String.append_empty .., fun h => by cases h⟩

include hkeeps

/-- **What a step adds** is the text up to where it leads, and no more; but a delimiter that it tells
    though it is read again comes on top of that. -/
theorem told_of_steps (hi : r.index ≤ m.span.start) (hm : m.span.start ≤ m.span.stop)
    (htiled : PartsTiled s.arena (s.topId r.frames) m) (h : Steps s m r r') :
    m.span.start ≤ r'.index ∧
    (¬ Retells s m r → r'.kept = r.kept ++ s.text.slice r.index r'.index) ∧
    (Retells s m r → r'.index = m.span.start ∧
      r'.kept = r.kept ++ s.text.slice r.index m.span.start ++ lexeme s m) := by
  cases h with
  | @opened id data hkind hopens hopened =>
    have hkept := hopened.kept hkeeps (hundisturbed id)
    rw [beginText_eq hparts hundisturbed hkind htiled, ← leavesBegin_and] at hkept
    rw [retells_iff_begins hkind hopens, retellsBegin_eq, Bool.not_eq_true]
    exact told_of_read hi hm hopened.index hkept
  | @closed n frames hkind hempty hanswer hclosed =>
    obtain ⟨hstarts, hnever⟩ := startText_eq (s := s) (m := m) hparts frames n
    have hkept := hclosed.kept hkeeps fun next labels hnext hlabels =>
      absurd hlabels (hnever next labels hnext)
    have htop : s.top (r.meet s m) = s.top r := rfl
    rw [hstarts, String.append_empty, htop, Scene.top, endText_eq hparts hkind htiled,
      ← leavesEnd_and] at hkept
    rw [retells_iff_ends hkind hempty hanswer, retellsEnd_eq, Bool.not_eq_true]
    exact told_of_read hi hm hclosed.index hkept
  | passed hnot hpassed =>
    exact ⟨hpassed.index, fun _ => hpassed.kept, fun hretells => absurd hretells.counts hnot⟩

/-- **One step loses nothing**: what it passes is told or held back. -/
theorem kept_step (h : KeptUpTo s r r.index) (hi : r.index ≤ m.span.start)
    (hm : m.span.start ≤ m.span.stop) (htiled : PartsTiled s.arena (s.topId r.frames) m)
    (hretells : ¬ Retells s m r) :
    (step s m r).Meets (fun r' => KeptUpTo s r' r'.index) fun _ => True := by
  refine Attempt.meets_mono (steps_step hi hm) (fun r' hsteps => ?_) fun _ _ => trivial
  obtain ⟨hindex, hkept, _⟩ := told_of_steps hkeeps hparts hundisturbed hi hm htiled hsteps
  show r'.kept = _
  rw [hkept hretells, show r.kept = s.text.slice 0 r.index from h,
    Text.slice_append _ (Nat.zero_le _) (Nat.le_trans hi hindex)]

end Steps

/-! ## 4. Runs -/

theorem kept_initial (continuation : Option (List Nat)) :
    KeptUpTo s (initial s.arena continuation) 0 ∧ (initial s.arena continuation).index = 0 := by
  have hfold : ∀ (ids : List Nat) (r : Run),
      (ids.foldl (fun r id => r.openMode s.arena (s.arena.mode id)) r).told = r.told ∧
      (ids.foldl (fun r id => r.openMode s.arena (s.arena.mode id)) r).buffer = r.buffer ∧
      (ids.foldl (fun r id => r.openMode s.arena (s.arena.mode id)) r).index = r.index := by
    intro ids
    induction ids with
    | nil => exact fun r => ⟨rfl, rfl, rfl⟩
    | cons id ids ih =>
      intro r
      obtain ⟨h1, h2⟩ := told_openMode r s.arena (s.arena.mode id)
      have h3 : (r.openMode s.arena (s.arena.mode id)).index = r.index := by
        unfold Run.openMode
        cases (s.arena.mode id).scope <;> rfl
      obtain ⟨h4, h5, h6⟩ := ih (r.openMode s.arena (s.arena.mode id))
      exact ⟨h4.trans h1, h5.trans h2, h6.trans h3⟩
  unfold initial startIn
  obtain ⟨h1, h2, h3⟩ := hfold ((startStack s.arena continuation).drop 1)
    { frames := framesOf (startStack s.arena continuation), buffer := "", events := [],
      relevance := 0, hits := .empty, blocks := .empty, index := 0, firstRule := 0,
      resumes := false, last := none }
  refine ⟨?_, h3⟩
  show Run.told _ ++ Run.buffer _ = _
  rw [h1, h2, Text.slice_self]
  rfl

/-- **The rest of the text is told at the end of a run**, unless that fails. -/
theorem told_complete (hkeeps : Keeps s) (notes : List HookNote) (r : Run) :
    ((complete s notes r).fault = none →
      textsOf (complete s notes r).events = r.kept ++ s.text.slice r.index s.text.size) ∧
    ((complete s notes r).fault.isSome = true → textsOf (complete s notes r).events = r.told) := by
  unfold complete
  simp only
  split
  · rename_i more r' hflushed
    refine ⟨fun _ => ?_, fun h => by cases h⟩
    show (r'.emit .finish).told = _
    rw [Run.told_emit, ((flushed_flush s _).1 r' (by rw [hflushed])).told hkeeps, kept_hold]
    exact String.append_empty ..
  · exact ⟨fun h => (by cases h), fun _ => rfl⟩

section Runs

variable (hkeeps : Keeps s) (hregular : Regular s.arena)
  (hundisturbed : ∀ id, Undisturbed (s.arena.mode id)) (htiles : TilesParts s.arena)

include hkeeps hregular hundisturbed htiles

/-- What a round handles has been looked up, so its groups tile it and it lies ahead. -/
theorem kept_handled {r r' : Run} {first : Nat} {notes : List HookNote}
    (h : KeptUpTo s r r.index) (hl : lookUp s r = .ok (some m, first))
    (hstep : step s m (r.atRule first) = ⟨notes, .ok r'⟩) : KeptUpTo s r' r'.index := by
  have hfinds := Arena.finds_next hl
  have hr : KeptUpTo s (r.atRule first) (r.atRule first).index := h
  have hmeets := kept_step hkeeps hregular.plainParts hundisturbed hr hfinds.from_le hfinds.ordered
    (htiles _ _ _ _ _ _ hl) hregular.not_retells
  exact hmeets.1 r' (by rw [hstep])

/-- **Before every round of a run the text up to the next character has been told or is held
    back.** -/
theorem kept_reached {n : Nat} (hr : Reached s continuation n r) :
    KeptUpTo s r r.index ∧ r.index ≤ s.text.size := by
  refine invariant (P := fun r => KeptUpTo s r r.index ∧ r.index ≤ s.text.size) ?_
    (fun {steps r notes r'} h hturn => ?_) hr
  · obtain ⟨hkept, hindex⟩ := kept_initial (s := s) continuation
    rw [hindex]
    exact ⟨hkept, Nat.zero_le _⟩
  · obtain ⟨m, first, hl, hstep, _, hindex⟩ := turn_next hturn
    exact ⟨kept_handled hkeeps hregular hundisturbed htiles h.1 hl hstep, hindex⟩

/-- **A whole run that is completed has told the text, and any other a beginning of it.** -/
theorem kept_scanAll (continuation : Option (List Nat)) :
    ((scanAll s continuation).fault = none →
      textsOf (scanAll s continuation).events = s.text.toStr) ∧
    (textsOf (scanAll s continuation).events).toList <+: s.text.toList := by
  have hends := ends_scanAll s continuation
  generalize scanAll s continuation = scanned at hends ⊢
  cases hends with
  | broken notes hr hturn =>
    refine ⟨fun h => (by cases h), ?_⟩
    exact Text.isPrefix_slice (kept_reached hkeeps hregular hundisturbed htiles hr).1
  | completed notes hr hturn =>
    rename_i n r0 r1 more
    obtain ⟨h0, hindex⟩ := kept_reached hkeeps hregular hundisturbed htiles hr
    have h1 : KeptUpTo s r1 r1.index := by
      rcases turn_last hturn with ⟨first, _, _, rfl⟩ | ⟨m, first, hl, hstep, _⟩
      · exact h0
      · exact kept_handled hkeeps hregular hundisturbed htiles h0 hl hstep
    obtain ⟨hdone, hfailed⟩ := told_complete hkeeps notes r1
    cases hfault : (complete s notes r1).fault with
    | none =>
      have htext : textsOf (complete s notes r1).events = s.text.toStr := by
        rw [hdone hfault, show r1.kept = s.text.slice 0 r1.index from h1, Text.slice_zero_append]
      have hlist : s.text.toStr.toList = s.text.toList := by rw [Text.toStr, String.toList_ofList]
      exact ⟨fun _ => htext, ⟨[], by rw [List.append_nil, htext, hlist]⟩⟩
    | some f =>
      refine ⟨fun h => (by cases h), ?_⟩
      rw [hfailed (by rw [hfault]; rfl)]
      exact Text.isPrefix_slice h1

end Runs

end Highlight.Scan
