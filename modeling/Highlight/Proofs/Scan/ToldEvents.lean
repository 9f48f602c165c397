import Highlight.Proofs.Scan.Places
import Highlight.Proofs.Scan.StepLaws

/-!
# Which events a run tells

Texts and closings aside, a run tells only scopes that its language names, and nested runs that its
delegate has answered with.

* `ScopeEmit.labels`, `ArenaMode.labels`, `Arena.labels` -- the labels that a language names;
* `Lasting` -- what stays true of the events of a run, whatever it tells next;
* `Tellable` -- a kind of event that all these are of;
* `lasting_flush`, `lasting_beginStep`, `lasting_endStep`, `lasting_step` -- the steps;
* `lasting_scanAll`, `suffix_scanAll`, `events_scanAll` -- whole runs.
-/

namespace Highlight.Arena

variable {arena : Arena} {id : Nat} {label : String}

/-! ## 1. Labels -/

/-- The labels that the text of a delimiter can have. -/
def ScopeEmit.labels : ScopeEmit → List String
  | .wrap label => [label]
  | .parts labels => labels.entries.filterMap (·.2)

/-- The categories of keywords that are shown. -/
def ModeKeywords.labels (k : ModeKeywords) : List String :=
  (k.table.entries.entries.map (·.2.scope)).filter fun scope => !Scan.isHidden scope

/-- The labels that a mode names: its own, those of its delimiters and those of its keywords. -/
def ArenaMode.labels (m : ArenaMode) : List String :=
  m.scope.toList ++ m.beginScope.toList.flatMap ScopeEmit.labels ++
    m.endScope.toList.flatMap ScopeEmit.labels ++ m.keywords.toList.flatMap ModeKeywords.labels

/-- **The labels that a language names.** -/
def labels (arena : Arena) : List String := arena.modes.toList.flatMap ArenaMode.labels

/-- A mode without labels is not one of the language, or names none. -/
theorem mem_labels_of_mode (h : label ∈ (arena.mode id).labels) : label ∈ arena.labels := by
  by_cases hid : id < arena.modes.size
  · have hmode : arena.mode id = arena.modes[id] := by simp [mode, hid]
    rw [hmode] at h
    exact List.mem_flatMap.mpr ⟨_, Array.getElem_mem_toList hid, h⟩
  · have hmode : arena.mode id = .blank := by simp [mode, hid]
    rw [hmode] at h
    cases h

theorem mem_labels_of_scope (h : (arena.mode id).scope = some label) : label ∈ arena.labels := by
  have hmode : label ∈ (arena.mode id).labels := by simp [ArenaMode.labels, h]
  exact mem_labels_of_mode hmode

theorem mem_labels_of_hasLabel {scope : ScopeEmit} (h : Scan.HasLabel label scope) :
    label ∈ scope.labels := by
  cases scope with
  | wrap l =>
    rw [show l = label from h]
    exact List.mem_singleton_self label
  | parts labels =>
    obtain ⟨part, hpart⟩ := h
    exact List.mem_filterMap.mpr ⟨_, hpart, rfl⟩

/-- **The labels that text can have of its own are named by the language.** -/
theorem mem_labels_of_ownLabel (h : Scan.OwnLabel arena label) : label ∈ arena.labels := by
  cases h with
  | @keyword id k word entry hk hentry hshown =>
    have hmem : entry.scope ∈ k.labels := by
      refine List.mem_filter.mpr ⟨?_, by rw [hshown]; rfl⟩
      exact List.mem_map.mpr ⟨_, mem_of_valueOf? hentry, rfl⟩
    have hmode : entry.scope ∈ (arena.mode id).labels := by simp [ArenaMode.labels, hk, hmem]
    exact mem_labels_of_mode hmode
  | @begins id scope label hscope hlabel =>
    have hmode : label ∈ (arena.mode id).labels := by
      simp [ArenaMode.labels, hscope, mem_labels_of_hasLabel hlabel]
    exact mem_labels_of_mode hmode
  | @ends id scope label hscope hlabel =>
    have hmode : label ∈ (arena.mode id).labels := by
      simp [ArenaMode.labels, hscope, mem_labels_of_hasLabel hlabel]
    exact mem_labels_of_mode hmode

end Highlight.Arena

namespace Highlight.Scan

open Highlight.Arena (ArenaMode RuleMatch ScopeEmit)
open Highlight.Grammar (HookData HookNote SubLanguage)
open Highlight.Token (Event)

variable {s : Scene} {P : List Event → Prop} {Q : Event → Prop} {r r' : Run} {m : RuleMatch}
  {continuation : Option (List Nat)}

/-! ## 2. What stays true of events -/

/-- **What stays true of the events of a run, the latest first, whatever it tells next**: a text, the
    opening of a scope that the language names, as it is called in the output, a closing, or what the
    delegate answers. -/
structure Lasting (s : Scene) (P : List Event → Prop) : Prop where
  text : ∀ {events} t, P events → P (.text t :: events)
  closing : ∀ {events}, P events → P (.closing :: events)
  finish : ∀ {events}, P events → P (.finish :: events)
  opening : ∀ {events}, ∀ label ∈ s.arena.labels, P events →
    P (.opening (s.arena.scopeAlias label) :: events)
  nested : ∀ {events} sub t n, s.delegate.Answers sub t n → P events →
    P (.nested n.language n.events :: events)

/-- **A kind of event that all are of that a run can tell.** -/
structure Tellable (s : Scene) (Q : Event → Prop) : Prop where
  text : ∀ t, Q (.text t)
  closing : Q .closing
  finish : Q .finish
  opening : ∀ label ∈ s.arena.labels, Q (.opening (s.arena.scopeAlias label))
  nested : ∀ sub t n, s.delegate.Answers sub t n → Q (.nested n.language n.events)

/-- That all events are of such a kind stays true. -/
theorem Tellable.lasting (h : Tellable s Q) : Lasting s fun events => ∀ e ∈ events, Q e where
  text t hr := List.forall_mem_cons.mpr ⟨h.text t, hr⟩
  closing hr := List.forall_mem_cons.mpr ⟨h.closing, hr⟩
  finish hr := List.forall_mem_cons.mpr ⟨h.finish, hr⟩
  opening label hlabel hr := List.forall_mem_cons.mpr ⟨h.opening label hlabel, hr⟩
  nested sub t n hn hr := List.forall_mem_cons.mpr ⟨h.nested sub t n hn, hr⟩

/-- What a run has told so far stays at the beginning of what it tells. -/
theorem lasting_suffix (s : Scene) (told : List Event) : Lasting s (told <:+ ·) where
  text _ hr := hr.trans (List.suffix_cons ..)
  closing hr := hr.trans (List.suffix_cons ..)
  finish hr := hr.trans (List.suffix_cons ..)
  opening _ _ hr := hr.trans (List.suffix_cons ..)
  nested _ _ _ _ hr := hr.trans (List.suffix_cons ..)

section Steps

variable (hs : Lasting s P)

include hs

theorem lasting_emitLabelled (hr : P r.events) {label : String} (t : String)
    (hlabel : label ∈ s.arena.labels) : P (r.emitLabelled s.arena t label).events := by
  unfold Run.emitLabelled
  split
  · exact hr
  · exact hs.closing (hs.text t (hs.opening label hlabel hr))

/-- Text that is told piece by piece is told in events of the kind. -/
theorem piecewise_lasting : Piecewise s.arena (· ∈ s.arena.labels)
    fun r r' _ => P r.events → P r'.events where
  refl _ := id
  trans h1 h2 := h2 ∘ h1
  text _ t hr := hs.text t hr
  count _ _ _ _ hr := hr
  labelled _ t _ hlabel hr := lasting_emitLabelled hs hr t hlabel
  keywords _ _ _ _ hk hentry hshown :=
    Arena.mem_labels_of_ownLabel (.keyword hk hentry hshown)

theorem lasting_tellBlock (hr : P r.events) (sub : SubLanguage) (t : String) :
    (tellBlock s sub t r).Meets (fun r' => P r'.events) fun _ => True := by
  have hanswer {x : Attempt Nested} {c : Option (List Nat)} {f : Nested → Run}
      (hx : s.delegate.ask sub t c = some x)
      (hf : ∀ n, s.delegate.Answers sub t n → P (f n).events) :
      (x >>= fun n => pure (f n)).Meets (fun r' => P r'.events) fun _ => True :=
    Attempt.meets_bind (Attempt.meets_mono (meets_ask s.delegate sub t c hx) (fun _ => id)
      fun _ _ => trivial) fun n hn => Attempt.meets_pure (hf n hn)
  unfold tellBlock
  split
  · exact Attempt.meets_pure hr
  · cases sub with
    | single name =>
      simp only
      split
      · exact Attempt.meets_pure (hs.text t hr)
      · rename_i x hx
        exact hanswer hx fun n hn => hs.nested _ t n hn hr
    | list names => exact hanswer (c := none) rfl fun n hn => hs.nested _ t n hn hr
    | any => exact hanswer (c := none) rfl fun n hn => hs.nested _ t n hn hr

theorem lasting_flush (hr : P r.events) :
    (flush s r).Meets (fun r' => P r'.events) fun _ => True := by
  exact meets_flush_of (fun sub _ => lasting_tellBlock hs (r := { r with buffer := "" }) hr sub r.buffer)
    fun _ => (piecewise_lasting hs).tellKeywords r.buffer _ hr

/-! ## 3. Steps -/

theorem lasting_openMode (hr : P r.events) (id : Nat) :
    P (r.openMode s.arena (s.arena.mode id)).events := by
  unfold Run.openMode
  split
  · rename_i label hlabel
    exact hs.opening label (Arena.mem_labels_of_scope hlabel) hr
  · exact hr

theorem lasting_tellParts (hr : P r.events) {labels : Dictionary Nat (Option String)}
    (hlabels : ∀ part label, (part, some label) ∈ labels.entries → label ∈ s.arena.labels) :
    P (tellParts s m labels r).events := (piecewise_lasting hs).tellParts m labels r hlabels hr

theorem lasting_startMode (hr : P r.events) (id : Nat) (data : HookData) :
    P (startMode s id m data r).events := by
  have hopen := lasting_openMode hs hr id
  unfold startMode
  simp only
  split
  · rename_i label hscope
    have hdropped : P { r.openMode s.arena (s.arena.mode id) with buffer := "" : Run }.events :=
      hopen
    exact lasting_emitLabelled hs hdropped _ (Arena.mem_labels_of_ownLabel (.begins hscope rfl))
  · rename_i labels hscope
    exact lasting_tellParts hs hopen fun part label hmem =>
      Arena.mem_labels_of_ownLabel (.begins hscope ⟨part, hmem⟩)
  · exact hopen

omit hs in
theorem lasting_turnDown (hr : P r.events) : P (turnDown s m r).events :=
  turnDown_of (P := fun r' => P r'.events) hr hr

theorem lasting_holdBegin (hr : P r.events) (mode : ArenaMode) (t : String) :
    (holdBegin s mode t r).Meets (fun r' => P r'.events) fun _ => True := by
  have hheld : P (if mode.excludeBegin then r.hold t else r).events := by
    split
    · exact hr
    · exact hr
  refine meets_holdBegin (fun _ => hr) (fun _ => lasting_flush hs hheld) fun _ r1 hr1 => ?_
  split
  · exact hr1
  · exact hr1

theorem lasting_beginStep (hr : P r.events) (id : Nat) :
    (beginStep s id m r).Meets (fun r' => P r'.events) fun _ => True := by
  exact meets_beginStep (fun _ => lasting_turnDown hr) (fun _ _ => trivial)
    (fun _ => lasting_holdBegin hs hr _ _) fun data _ _ hr1 => lasting_startMode hs hr1 id data

theorem lasting_holdEnd (hr : P r.events) (id : Nat) :
    (holdEnd s (s.arena.mode id) m r).Meets (fun r' => P r'.events) fun _ => True := by
  have hheld : P (if (s.arena.mode id).returnEnd || (s.arena.mode id).excludeEnd then r
      else r.hold (lexeme s m)).events := by
    split
    · exact hr
    · exact hr
  refine meets_holdEnd (fun _ => lasting_flush hs hr)
    (fun label hscope r1 hr1 => lasting_emitLabelled hs hr1 _
      (Arena.mem_labels_of_ownLabel (.ends hscope rfl)))
    (fun labels hscope r1 hr1 => lasting_tellParts hs hr1 fun part label hmem =>
      Arena.mem_labels_of_ownLabel (.ends hscope ⟨part, hmem⟩))
    (fun _ _ => hr) (fun _ _ => lasting_flush hs hheld) fun _ _ r1 hr1 => ?_
  split
  · exact hr1
  · exact hr1

theorem lasting_closeFrames (count : Nat) (ended : Option Nat) (hr : P r.events) :
    P (closeFrames s.arena count ended r).2.events := by
  refine closeFrames_of (P := fun r' => P r'.events) (fun r f rest _ hr => ?_) count ended hr
  refine closeFrame_of (P := fun r' => P r'.events) ?_ fun _ _ h => h
  unfold Run.closeMode
  split
  · exact hs.closing hr
  · exact hr

theorem lasting_endStep (hr : P r.events) :
    (endStep s m r).Meets (fun r' => P r'.events) fun _ => True := by
  exact meets_endStep (Attempt.meets_any _) (fun _ _ => hr)
    (fun _ frames _ => lasting_holdEnd hs (r := { r with frames }) hr _)
    (fun n _ _ _ hr1 _ => lasting_closeFrames hs n none hr1)
    fun n _ _ next _ hr1 _ => lasting_startMode hs (lasting_closeFrames hs n none hr1) next .empty

/-- **A step tells only events of the kind.** -/
theorem lasting_step (hr : P r.events) :
    (step s m r).Meets (fun r' => P r'.events) fun _ => True := by
  exact meets_step hr (fun _ => trivial) (fun id _ => lasting_beginStep hs (r := r.meet s m) hr id)
    (fun _ => lasting_endStep hs (r := r.meet s m) hr)
    (fun _ => passIllegal_of (P := fun r' => P r'.events) hr hr) fun _ => trivial

/-- A round. -/
theorem lasting_round {first : Nat} {notes : List HookNote} (hr : P r.events)
    (hstep : step s m (r.atRule first) = ⟨notes, .ok r'⟩) : P r'.events :=
  (lasting_step hs (r := r.atRule first) hr).1 r' (by rw [hstep])

/-! ## 4. Whole runs -/

theorem lasting_initial (hempty : P []) (continuation : Option (List Nat)) :
    P (initial s.arena continuation).events := by
  have hfold : ∀ (ids : List Nat) (r : Run), P r.events →
      P (ids.foldl (fun r id => r.openMode s.arena (s.arena.mode id)) r).events := by
    intro ids
    induction ids with
    | nil => exact fun _ hr => hr
    | cons id ids ih => exact fun r hr => ih _ (lasting_openMode hs hr id)
  exact hfold _ _ hempty

/-- What is true at some point of a run is true at every later one. -/
theorem lasting_reached {n k : Nat} (hr : Reached s continuation n r) (h : P r.events)
    (hr' : Reached s continuation k r') (hle : n ≤ k) : P r'.events := by
  induction hr' with
  | start =>
    obtain rfl : n = 0 := by omega
    cases reached_unique hr .start
    exact h
  | @next k r0 r' notes hr0 hturn ih =>
    rcases Nat.lt_or_eq_of_le hle with hlt | rfl
    · obtain ⟨m, first, -, hstep, -, -⟩ := turn_next hturn
      exact lasting_round hs (ih (by omega)) hstep
    · cases reached_unique hr (.next hr0 hturn)
      exact h

/-- **What is true at some point of a run is true of all that it has told in the end**, whether it is
    completed or ended by a fault. -/
theorem lasting_scanAll {n : Nat} (hr : Reached s continuation n r) (h : P r.events) :
    P (scanAll s continuation).events.reverse := by
  have hends := ends_scanAll s continuation
  generalize scanAll s continuation = scanned at hends
  cases hends with
  | @broken k r' f more notes hr' hturn =>
    rw [broken, List.reverse_reverse]
    refine lasting_reached hs hr h hr' (le_of_over hr hr' fun notes' r'' hnext => ?_)
    cases hturn.symm.trans hnext
  | @completed k r0 r' more notes hr' hturn =>
    have htold : P r0.events := by
      refine lasting_reached hs hr h hr' (le_of_over hr hr' fun notes' r'' hnext => ?_)
      cases hturn.symm.trans hnext
    have hlast : P r'.events := by
      rcases turn_last hturn with ⟨first, -, -, rfl⟩ | ⟨m, first, -, hstep, -⟩
      · exact htold
      · exact lasting_round hs htold hstep
    have hflush := lasting_flush hs (r := r'.hold (s.text.slice r'.index s.text.size)) hlast
    unfold complete
    simp only
    split
    · rename_i r2 hflushed
      rw [List.reverse_reverse]
      exact hs.finish (hflush.1 r2 (by rw [hflushed]))
    · rw [List.reverse_reverse]
      exact hlast

end Steps

/-- **A run tells nothing before what it has told already.** -/
theorem suffix_scanAll {n : Nat} (hr : Reached s continuation n r) :
    r.events.reverse <+: (scanAll s continuation).events := by
  have hsuffix := lasting_scanAll (lasting_suffix s r.events) hr (List.suffix_refl _)
  rw [← List.reverse_reverse (scanAll s continuation).events]
  exact List.reverse_prefix.mpr hsuffix

/-- **A run tells only events of the kind**, whether it is completed or ended by a fault. -/
theorem events_scanAll (hs : Tellable s Q) (continuation : Option (List Nat)) :
    ∀ e ∈ (scanAll s continuation).events, Q e := by
  have hinitial := lasting_initial hs.lasting (fun _ he => by cases he) continuation
  have hall := lasting_scanAll hs.lasting .start hinitial
  exact fun e he => hall e (List.mem_reverse.mpr he)

end Highlight.Scan
