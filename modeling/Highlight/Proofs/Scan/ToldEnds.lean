import Highlight.Proofs.Arena.Parts
import Highlight.Proofs.Scan.KeptText
import Highlight.Proofs.Scan.OpenEnds

/-!
# Ends that are told

An end that closes modes is told by the innermost of them, whichever end it is. If this mode labels its
end by group, it tells the groups of its own end: they make it up where it is this end that has
matched, and have read nothing where it is that of a mode further out. And a mode that is started and
labels its beginning by group tells the groups of the end as if they were those of its beginning.

* `EndsInPlainParts` -- a mode whose end is in several parts that are plain;
* `partsText_of_end` -- what the groups of its end have read;
* `Ended` -- an end that closes modes, in a round of a run;
* `DropsEnd` -- a mode that is started drops what is held back of the end;
* `told_of_ended` -- **what such a round adds**.
-/

namespace Highlight.Scan

open Highlight.Arena (ArenaMode EndsInParts IsPart MadeUpBy RuleMatch Undisturbed compileLanguage)
open Highlight.Grammar (HookNote Language)
open Highlight.Pattern (TiledBy groupsOf partGroup)

variable {s : Scene} {r r' : Run} {m : RuleMatch} {name : String} {language : Language}
  {continuation : Option (List Nat)} {f : Frame} {below asked : List Frame} {n k first : Nat}

/-! ## 1. Ends in several parts -/

/-- **A mode ends with some plain parts**, labelled by part. -/
def EndsInPlainParts (language : Language) (mode : ArenaMode) : Prop :=
  ∃ parts names regexes, EndsInParts language mode parts names ∧
    List.Forall₂ (IsPart language.caseInsensitive) parts regexes ∧
    groupsOf regexes + regexes.length ≤ Text.maxCount

/-- Groups that make up a match lie end to end in it. -/
theorem tiled_of_tiledBy {i j : Nat} {keys : List Nat}
    (h : TiledBy (fun k => (m.groups[k]?).join) i j keys) : Tiled m.groups i j keys := by
  induction keys generalizing i with
  | nil => exact h
  | cons key keys ih =>
    obtain ⟨stop, hkey, hle, hrest⟩ := h
    refine ⟨stop, ?_, hle, ih hrest⟩
    exact Option.join_eq_some_iff.mp hkey

/-- Groups that have read nothing have no text. -/
theorem partsText_of_unread {parts : List (Nat × Option String)}
    (h : ∀ key ∈ parts.map (·.1), (m.groups[key]?).join = none) : partsText s m parts = "" := by
  induction parts with
  | nil => rfl
  | cons part parts ih =>
    have hpart : partText s m part.1 = "" := by
      have hnone := h part.1 (by simp)
      unfold partText
      split
      · rename_i span hspan
        rw [hspan] at hnone
        cases hnone
      · rfl
    rw [partsText, hpart, ih fun key hkey => h key (by simp [hkey])]
    rfl

/-- **The groups of the end of the innermost mode have the text of its own end**, where this has
    matched, and none where another end has. -/
theorem partsText_of_end (hc : compileLanguage name language = .ok s.arena)
    (hext : language.extensions = []) (hin : InStep s r) (hlinked : Linked s.arena (s.stack r.frames))
    (hl : lookUp s r = .ok (some m, first)) (hends : m.kind = .ends) (hframes : r.frames = f :: below)
    (hapart : KeepsApart s language.caseInsensitive [] below f)
    (hplain : EndsInPlainParts language (s.arena.mode f.mode))
    {labels : Dictionary Nat (Option String)}
    (hlabels : (s.arena.mode f.mode).endScope = some (.parts labels)) :
    partsText s m labels.entries =
      if endsAt s (s.arena.mode f.mode) m.span.start then lexeme s m else "" := by
  obtain ⟨parts, names, regexes, hwritten, hparts, hle⟩ := hplain
  obtain ⟨labels', row, _, hkeys, _, hscope, hregex, _, hrow⟩ :=
    Arena.row_of_ends hparts hle hwritten hext
  cases hlabels.symm.trans hscope
  cases hf : endsAt s (s.arena.mode f.mode) m.span.start with
  | true =>
    obtain ⟨regex, own, hregex', hown, hspan, hgroups⟩ := groups_of_own_end hc hext hin hlinked hl
      hends (show r.frames = [] ++ f :: below from hframes) (fun _ h => by cases h) hf hapart
    cases hregex.symm.trans hregex'
    have hsize : m.span.start ≤ s.text.size :=
      Nat.le_trans (Arena.finds_next hl).ordered (Arena.finds_next hl).stop_le
    rw [Arena.matchAt_eq_matchFrom (hapart.origin f (by simp) row hregex) hsize 0] at hown
    have hmade : MadeUpBy m labels.keys := by
      rw [hkeys]
      exact Arena.madeUp_of_row hrow hparts.length_eq hsize hown hspan fun i _ => hgroups i
    exact (partsText_of_tiled _ _ (tiled_of_tiledBy hmade)).1
  | false =>
    refine partsText_of_unread fun key hkey => ?_
    have hmem : key ∈ labels.keys := hkey
    rw [hkeys] at hmem
    obtain ⟨i, hi, rfl⟩ := List.mem_map.mp hmem
    have := Arena.groupsOf_take_le regexes i
    rw [List.mem_range, hparts.length_eq] at hi
    refine unread_of_other_end hc hext hin hlinked hl hends hframes hf hapart hregex ?_ ?_
    · rw [partGroup]
      omega
    · rw [hrow.groups, partGroup]
      omega

/-! ## 2. Rounds -/

/-- Whether a mode labels its end by group. -/
def labelsGroups (mode : ArenaMode) : Bool :=
  match mode.endScope with
  | some (.parts _) => true
  | _ => false

/-- **In a round of a run an end closes modes**, as many as `k` says. -/
structure Ended (s : Scene) (continuation : Option (List Nat)) (n : Nat) (r : Run) (m : RuleMatch)
    (k : Nat) (asked : List Frame) (r' : Run) : Prop where
  reached : Reached s continuation n r
  found : ∃ first, lookUp s r = .ok (some m, first)
  kind : m.kind = .ends
  full : isEmptyMode m r.last = false
  counts : (endOf s m r.frames).result = .ok (some k, asked)
  next : ∃ notes, turn s (n + 1) r = .next notes r'

/-- What becomes of the state in a round in which an end closes modes. -/
theorem Ended.closed (h : Ended s continuation n r m k asked r') :
    r.index ≤ m.span.start ∧ m.span.start ≤ m.span.stop ∧
      ∃ first, Closed s m k asked ((r.atRule first).meet s m) r' := by
  obtain ⟨notes, hturn⟩ := h.next
  obtain ⟨first, hl⟩ := h.found
  obtain ⟨m', first', hl', hi, hm, hsteps⟩ := steps_of_turn hturn
  cases hl.symm.trans hl'
  refine ⟨hi, hm, first, ?_⟩
  cases hsteps with
  | opened hkind => cases h.kind.symm.trans hkind
  | closed _ _ hanswer hclosed =>
    cases h.counts.symm.trans hanswer
    exact hclosed
  | passed hnot => exact absurd (.ends h.kind h.full h.counts) hnot

/-- **A mode that is started drops the end**: it labels its beginning by group, and the innermost mode
    holds its end back. -/
def DropsEnd (s : Scene) (r : Run) (k : Nat) (asked : List Frame) : Prop :=
  holdsEnd (s.top r) = true ∧ ∃ next labels, startedBy s asked k = some next ∧
    (s.arena.mode next).beginScope = some (.parts labels)

/-- Whether the innermost mode tells an end: one that labels its own by group tells no other. -/
def tellsEnd (s : Scene) (r : Run) (m : RuleMatch) : Bool :=
  !labelsGroups (s.top r) || endsAt s (s.top r) m.span.start

/-- An end that is labelled by group is told if it is that of its mode, and not if it is another. -/
theorem endText_of_labels (hc : compileLanguage name language = .ok s.arena)
    (hext : language.extensions = [])
    (hcontinued : ∀ stack, continuation = some stack → StackReached s.arena stack)
    (h : Ended s continuation n r m k asked r') (hgroups : labelsGroups (s.top r) = true)
    (hplain : EndsInPlainParts language (s.top r))
    (hapart : ∀ f below, r.frames = f :: below →
      KeepsApart s language.caseInsensitive [] below f) :
    endText s (s.top r) m = if tellsEnd s r m then lexeme s m else "" := by
  have hbetween : Between s continuation r := .inl ⟨n, h.reached⟩
  obtain ⟨first, hl⟩ := h.found
  cases hframes : r.frames with
  | nil =>
    have hcounts := h.counts
    rw [hframes] at hcounts
    cases hcounts
  | cons f below =>
    have hf : s.top r = s.arena.mode f.mode := by rw [Scene.top, hframes]; rfl
    rw [tellsEnd, hgroups, Bool.not_true, Bool.false_or]
    rw [hf] at hgroups hplain ⊢
    unfold labelsGroups at hgroups
    split at hgroups
    · rename_i labels hscope
      rw [endText, hscope]
      exact partsText_of_end hc hext (inStep_between hc hbetween)
        (linked_of_reached hc (.between rfl hcontinued hbetween)) hl h.kind hframes
        (hapart f below hframes) hplain hscope
    · cases hgroups

/-- What a mode that labels no groups adds of an end is what is not left to be read again. -/
theorem endText_of_unlabelled (hgroups : labelsGroups (s.top r) = false)
    (hindex : r'.index = if (s.top r).returnEnd then m.span.start else m.span.stop) :
    endText s (s.top r) m =
      s.text.slice m.span.start (if retellsEnd (s.top r) then m.span.stop else r'.index) := by
  have hread : endText s (s.top r) m =
      if leavesEnd (s.top r) && (s.top r).endScope.isNone then "" else lexeme s m := by
    unfold labelsGroups at hgroups
    unfold endText
    cases hscope : (s.top r).endScope with
    | none => simp
    | some scope =>
      cases scope with
      | wrap label => simp
      | parts labels => simp [hscope] at hgroups
  rw [hread, hindex, retellsEnd_eq]
  cases hreturn : (s.top r).returnEnd with
  | false => simp [leavesEnd, hreturn, lexeme]
  | true =>
    cases leavesEnd (s.top r) && (s.top r).endScope.isNone
    · rfl
    · exact (Text.slice_self ..).symm

/-- **What a round adds in which an end closes modes.** The end is told up to where the round leads,
    unless the innermost mode labels its own end by group and this has not matched: then it is not
    told at all. An end that is told and left to be read again is told in full. A mode that is started
    and labels its beginning by group tells the groups with these numbers on top of that; if the
    innermost mode has held its end back, this is dropped, with the text before it if the mode is
    skipped. -/
theorem told_of_ended (hkeeps : Keeps s) (hc : compileLanguage name language = .ok s.arena)
    (hext : language.extensions = [])
    (hcontinued : ∀ stack, continuation = some stack → StackReached s.arena stack)
    (h : Ended s continuation n r m k asked r')
    (hlabels : labelsGroups (s.top r) = true → EndsInPlainParts language (s.top r) ∧
      ∀ f below, r.frames = f :: below → KeepsApart s language.caseInsensitive [] below f) :
    (¬ DropsEnd s r k asked → r'.kept = r.kept ++ s.text.slice r.index m.span.start ++
      (if tellsEnd s r m then
        s.text.slice m.span.start (if retellsEnd (s.top r) then m.span.stop else r'.index)
      else "") ++ startText s m (startedBy s asked k)) ∧
    (DropsEnd s r k asked → r'.kept =
      (if (s.top r).skip then r.told else r.kept ++ s.text.slice r.index m.span.start) ++
        startText s m (startedBy s asked k)) := by
  obtain ⟨_, _, first, hclosed⟩ := h.closed
  have hmet : ((r.atRule first).meet s m).kept = r.kept ++ s.text.slice r.index m.span.start :=
    kept_hold (r.atRule first) _
  have hindex : r'.index = if (s.top r).returnEnd then m.span.start else m.span.stop :=
    hclosed.index
  refine ⟨fun hdrops => ?_, fun ⟨hholds, next, labels, hnext, hscope⟩ => ?_⟩
  · have hkept := hclosed.kept hkeeps fun next labels hnext hscope =>
      Bool.eq_false_iff.mpr fun hholds => hdrops ⟨hholds, next, labels, hnext, hscope⟩
    rw [hmet] at hkept
    refine hkept.trans (congrArg (· ++ startText s m (startedBy s asked k)) (congrArg _ ?_))
    show endText s (s.top r) m = _
    cases hgroups : labelsGroups (s.top r) with
    | false =>
      rw [tellsEnd, hgroups]
      exact endText_of_unlabelled hgroups hindex
    | true =>
      obtain ⟨hplain, hapart⟩ := hlabels hgroups
      rw [endText_of_labels hc hext hcontinued h hgroups hplain hapart]
      obtain ⟨labels, hscope⟩ : ∃ labels, (s.top r).endScope = some (.parts labels) := by
        unfold labelsGroups at hgroups
        split at hgroups
        · exact ⟨_, ‹_›⟩
        · cases hgroups
      have hreturn := ((Arena.undisturbed_mode hc hext (s.topId r.frames)).ends labels hscope).2.2
      rw [show (s.top r).returnEnd = false from hreturn, if_neg Bool.false_ne_true] at hindex
      have hagain : retellsEnd (s.top r) = false := by
        rw [retellsEnd_eq, show (s.top r).returnEnd = false from hreturn, Bool.false_and]
      rw [hagain, if_neg Bool.false_ne_true, hindex]
      rfl
  · refine (hclosed.dropped hkeeps hholds next labels hnext hscope).trans ?_
    rw [hmet, hnext, startText, hscope]
    rfl

end Highlight.Scan
