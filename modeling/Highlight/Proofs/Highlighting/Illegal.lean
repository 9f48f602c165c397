import Highlight.Proofs.Highlighting.Detection
import Highlight.Proofs.Highlighting.SafeMode
import Highlight.Proofs.Text.Context

/-!
# Where something forbidden was met

An outcome tells where its text has something forbidden: by the byte offset, by line and column, and
by some of the text around it. All of it is reckoned from what comes before the offset, where a
character begins.

* `Gives` -- the outcomes that are given for a text;
* `PlacedIn`, `placedIn_of_gives` -- something forbidden is placed between two parts of the text;
* `located_both_ways` -- **line and column are those of the line that is found at the offset**, and
  what is shown is a slice of the text;
* `shown_around_index` -- **what is shown around the offset**, and how much that is;
* `context_takes_more_bytes` -- where a cut falls inside a character, it is more than a hundred
  bytes.
-/

namespace Highlight.Highlighter

open Highlight.Arena (compileLanguage)
open Highlight.Grammar (Language)
open Highlight.Text (IsLines byteLength lineAt newlinesBefore)

variable {h : Highlighter} {name code : String} {arena : Arena} {language : Language}
  {ignoreIllegals : Bool} {continuation : Option (List Nat)} {depth : Nat} {o : Outcome}
  {place : IllegalBy}

/-! ## 1. Outcomes that tell of something forbidden -/

/-- **The outcomes that are given for a text**: that of a run, and both of a detection. -/
inductive Gives (h : Highlighter) (code : String) : Outcome → Prop
  | highlight {name : String} {ignoreIllegals : Bool} {continuation : Option (List Nat)}
      {o : Outcome} : (h.highlight name code ignoreIllegals continuation).result = .ok o →
      Gives h code o
  | best {candidates : Option (List String)} {d : Detection} :
      (h.highlightAuto code candidates).result = .ok d → Gives h code d.best
  | second {candidates : Option (List String)} {d : Detection} {o : Outcome} :
      (h.highlightAuto code candidates).result = .ok d → d.secondBest = some o → Gives h code o

/-- Something forbidden is placed in a text, between two parts of it. -/
def PlacedIn (code : String) (place : IllegalBy) : Prop :=
  ∃ f before after, place = .ofFault f code ∧ code.toList = before ++ after ∧
    min f.position.offset code.utf8ByteSize = byteLength before

/-- Where an outcome tells of something forbidden, safe mode has recovered it from a fault of the
    run. -/
theorem fault_of_illegalBy? {delegate : Scan.Delegate}
    (ho : (h.runArena delegate arena code ignoreIllegals continuation).result = .ok o)
    (hplace : o.illegalBy? = some place) :
    ∃ f, (Scan.scanAll (h.sceneOf delegate arena code ignoreIllegals) continuation).fault = some f ∧
      h.options.safeMode = true ∧ f.cause.isIllegal = true ∧ place = .ofFault f code := by
  simp only [runArena, conclude] at ho
  split at ho
  · rename_i f hfault
    unfold recover at ho
    split at ho
    · cases ho
    · rename_i hends
      rw [Bool.or_eq_true, not_or] at hends
      cases hillegal : f.cause.isIllegal with
      | false =>
        rw [hillegal] at ho
        cases ho
        cases hplace
      | true =>
        rw [hillegal] at ho
        cases ho
        cases hplace
        exact ⟨f, hfault, by simpa using hends.2, hillegal, rfl⟩
  · cases ho
    cases hplace

theorem placedIn_of_runArena (hc : compileLanguage name language = .ok arena)
    (ho : (h.runArena (h.delegateTo (h.runAt depth)) arena code ignoreIllegals
      continuation).result = .ok o) (hplace : o.illegalBy? = some place) : PlacedIn code place := by
  obtain ⟨f, hfault, hsafe, hillegal, rfl⟩ := fault_of_illegalBy? ho hplace
  obtain ⟨-, cause, i, rfl⟩ := illegal_of_fault hc hsafe hfault hillegal
  obtain ⟨before, after, hcode, hindex⟩ := boundary_of_illegal
    (h.sceneOf (h.delegateTo (h.runAt depth)) arena code ignoreIllegals) code rfl cause i
  refine ⟨_, before.toList, after.toList, rfl, ?_, ?_⟩
  · rw [← String.toList_append, ← hcode]
  · rw [Text.byteLength_toList, hindex]
    rfl

/-- A run at any depth places what is forbidden in its text. -/
theorem placedIn_of_runAt (hb : Built h)
    (ho : (h.runAt depth name code ignoreIllegals continuation).result = .ok o)
    (hplace : o.illegalBy? = some place) : PlacedIn code place := by
  cases depth with
  | zero => cases ho
  | succ depth =>
    rcases language?_of_built hb name with ⟨hl, -⟩ | ⟨arena, language, hl, -, hc⟩
    · change (h.runIn (h.runAt depth) name code ignoreIllegals continuation).result = .ok o at ho
      unfold runIn at ho
      rw [hl] at ho
      cases ho
    · rw [runAt_succ hl] at ho
      exact placedIn_of_runArena hc ho hplace

/-- **Whatever outcome is given, what is forbidden is placed in its text.** -/
theorem placedIn_of_gives (hb : Built h) (hg : h.Gives code o) (hplace : o.illegalBy? = some place) :
    PlacedIn code place := by
  have hdetected : ∀ {candidates : Option (List String)} {d : Detection},
      (h.highlightAuto code candidates).result = .ok d →
      (o = d.best ∨ d.secondBest = some o) → PlacedIn code place := fun hd hchosen => by
    rcases plain_or_run hd hchosen with rfl | ⟨name, hrun⟩
    · cases hplace
    · exact placedIn_of_runAt hb hrun hplace
  cases hg with
  | highlight hrun => exact placedIn_of_runAt hb hrun hplace
  | best hd => exact hdetected hd (.inl rfl)
  | second hd hsecond => exact hdetected hd (.inr hsecond)

/-! ## 2. Line and column -/

/-- **Line and column are those of the line that is found at the offset.** -/
theorem PlacedIn.agrees (hp : PlacedIn code place) {n c : Nat} {line : List Char}
    (hline : lineAt code place.index = some ⟨n, line, c⟩) : place.line = n ∧ place.column = c + 1 := by
  obtain ⟨f, before, after, rfl, hcode, hindex⟩ := hp
  rw [ofFault_eq hcode hindex] at hline ⊢
  cases after with
  | nil =>
    have hend : code.utf8ByteSize ≤ byteLength before := by
      rw [← Text.byteLength_toList, hcode, List.append_nil]
    rw [Text.lineAt_eq_none hend] at hline
    cases hline
  | cons d after =>
    obtain ⟨tail, rest, -, hplace⟩ := Text.lineAt_inside (k := 0) hcode d.utf8Size_pos
    rw [Nat.add_zero, hline] at hplace
    cases hplace
    exact ⟨rfl, rfl⟩

/-- What is shown is a slice, from an offset before the index to one behind it. -/
theorem PlacedIn.exists_slice (hp : PlacedIn code place) : ∃ b e, b ≤ place.index ∧
    place.index ≤ e ∧ (Text.ofString code).slice? b e = some place.context := by
  obtain ⟨f, before, after, rfl, hcode, hindex⟩ := hp
  obtain ⟨front, lead, tail, back, rfl, rfl, hcontext, -, -⟩ := context_cut hcode hindex
  have hplace : (IllegalBy.ofFault f code).index = byteLength (front ++ lead) := hindex
  refine ⟨byteLength front, byteLength (front ++ (lead ++ tail)), ?_, ?_, ?_⟩
  · rw [hplace, Text.byteLength_append]
    exact Nat.le_add_right _ _
  · rw [hplace, ← List.append_assoc, Text.byteLength_append (front ++ lead)]
    exact Nat.le_add_right _ _
  · rw [hcontext]
    exact Text.slice?_between front (lead ++ tail) back (by rw [hcode]; simp only [List.append_assoc])

/-- **An offset is located in two ways, which agree.** From the end of a text on, no line is found.
    Before it, the line is found that the offset falls in: behind the lines before it, which are as
    many as there are newlines before the offset, and as far from its start as the column tells. And
    where an outcome tells of something forbidden, its line and column are those of the line that is
    found at the index; no slice is missing when it is placed by byte offsets, and what is shown is
    the text between two offsets around the index that fall between characters. -/
theorem located_both_ways :
    (∀ (s : String) (offset : Nat),
      (s.utf8ByteSize ≤ offset → lineAt s offset = none) ∧
      (offset < s.utf8ByteSize → ∃ place earlier later, lineAt s offset = some place ∧
        IsLines (earlier ++ place.line :: later) s.toList ∧
        earlier.flatten ++ place.line <+: s.toList ∧
        byteLength earlier.flatten ≤ offset ∧
        offset < byteLength (earlier.flatten ++ place.line) ∧
        place.number = 1 + newlinesBefore s offset ∧
        place.column = offset - byteLength earlier.flatten)) ∧
    ∀ {h : Highlighter} {code : String} {o : Outcome} {place : IllegalBy}, Built h →
      h.Gives code o → o.illegalBy? = some place →
      (∀ n line c, lineAt code place.index = some ⟨n, line, c⟩ →
        place.line = n ∧ place.column = c + 1) ∧
      (∃ f, place = .ofFault f code ∧ IllegalBy.byBytes? f code = some place) ∧
      ∃ b e, b ≤ place.index ∧ place.index ≤ e ∧
        (Text.ofString code).slice? b e = some place.context := by
  refine ⟨fun s offset => ⟨Text.lineAt_eq_none, Text.lineAt_eq_some⟩, ?_⟩
  intro h code o place hb hg hplace
  have hp := placedIn_of_gives hb hg hplace
  refine ⟨fun n line c => hp.agrees, ?_, hp.exists_slice⟩
  obtain ⟨f, before, after, rfl, hcode, hindex⟩ := hp
  exact ⟨f, rfl, byBytes?_eq_some hcode hindex⟩

/-- In the second line of a text, behind a character of two bytes. -/
theorem located_in_second_line : ∃ h o place, withBrackets strictLanguage = .ok h ∧ Built h ∧
    h.Gives "é\nü#\n" o ∧ o.illegalBy? = some place ∧
    lineAt "é\nü#\n" place.index = some ⟨2, "ü#\n".toList, 2⟩ ∧ place.line = 2 ∧
    place.column = 3 := by
  have hcheck : passes (withBrackets strictLanguage) (fun h =>
      passes (h.highlight "inner" "é\nü#\n" false none).result fun o =>
        (o.illegalBy?.map (·.index)) == some 5) = true := by decide +kernel
  obtain ⟨h, hh, hcheck⟩ := exists_of_passes hcheck
  obtain ⟨o, ho, hindex⟩ := exists_of_passes hcheck
  obtain ⟨place, hplace, hindex⟩ := Option.map_eq_some_iff.mp (eq_of_beq hindex)
  have hline : lineAt "é\nü#\n" place.index = some ⟨2, "ü#\n".toList, 2⟩ := by
    rw [hindex]
    rfl
  have hb : Built h := built_withBrackets hh
  obtain ⟨hagrees, -, -⟩ := located_both_ways.2 hb (.highlight ho) hplace
  exact ⟨h, o, place, hh, hb, .highlight ho, hplace, hline, hagrees _ _ _ hline⟩

/-! ## 3. What is shown -/

/-- **What is shown around something forbidden is cut from the text where characters meet**: on either
    side of the index, at the nearest such place that is a hundred bytes away or farther, or at the
    end of the text. That makes up to three bytes more, and no more than a hundred just where
    characters meet a hundred bytes away. -/
theorem shown_around_index (hb : Built h) (hg : h.Gives code o) (hplace : o.illegalBy? = some place) :
    ∃ front lead tail back, place.Shows code front lead tail back ∧
      front.utf8ByteSize = (Text.ofString code).boundaryBelow (place.index - contextBytes) ∧
      (front ++ lead ++ tail).utf8ByteSize = (Text.ofString code).boundaryAbove
        (min (place.index + contextBytes) code.utf8ByteSize) ∧
      lead.utf8ByteSize ≤ contextBytes + 3 ∧ tail.utf8ByteSize ≤ contextBytes + 3 ∧
      (lead.utf8ByteSize ≤ contextBytes ↔
        (Text.ofString code).isBoundary (place.index - contextBytes) = true) ∧
      (tail.utf8ByteSize ≤ contextBytes ↔
        (Text.ofString code).isBoundary (min (place.index + contextBytes) code.utf8ByteSize) =
          true) := by
  obtain ⟨f, before, after, rfl, hcode, hindex⟩ := placedIn_of_gives hb hg hplace
  exact context_sizes hcode hindex

/-- A text with a character of two bytes, ninety-nine of one byte, and one that is forbidden. -/
def farText : String := "é" ++ String.ofList (List.replicate 99 'a') ++ "#"

theorem exists_place_farText : ∃ h o place, withBrackets strictLanguage = .ok h ∧ Built h ∧
    h.Gives farText o ∧ o.illegalBy? = some place ∧ place.index = 101 ∧ place.context = farText := by
  have hcheck : passes (withBrackets strictLanguage) (fun h =>
      passes (h.highlight "inner" farText false none).result fun o =>
        o.illegalBy?.map (fun place => (place.index, place.context)) == some (101, farText)) =
          true := by decide +kernel
  obtain ⟨h, hh, hcheck⟩ := exists_of_passes hcheck
  obtain ⟨o, ho, hplace⟩ := exists_of_passes hcheck
  obtain ⟨place, hplace, hshown⟩ := Option.map_eq_some_iff.mp (eq_of_beq hplace)
  rw [Prod.mk.injEq] at hshown
  exact ⟨h, o, place, hh, built_withBrackets hh, .highlight ho, hplace, hshown⟩

/-- A hundred bytes before the index there is the middle of a character, and behind it the text ends:
    in front more is shown than asked for, and not behind. -/
theorem farText_is_shown : ∃ h o place, Built h ∧ h.Gives farText o ∧ o.illegalBy? = some place ∧
    ∃ front lead tail back, place.Shows farText front lead tail back ∧
      contextBytes < lead.utf8ByteSize ∧ lead.utf8ByteSize ≤ contextBytes + 3 ∧
      tail.utf8ByteSize ≤ contextBytes := by
  obtain ⟨h, o, place, -, hb, hg, hplace, hindex, -⟩ := exists_place_farText
  obtain ⟨front, lead, tail, back, hshows, -, -, hlead, -, hbefore, hafter⟩ :=
    shown_around_index hb hg hplace
  rw [hindex] at hbefore hafter
  refine ⟨h, o, place, hb, hg, hplace, front, lead, tail, back, hshows, ?_, hlead, ?_⟩
  · exact Nat.lt_of_not_le fun hle => absurd (hbefore.mp hle) (by decide +kernel)
  · exact hafter.mpr (by decide +kernel)

/-- **Where a cut falls inside a character, more than a hundred bytes are shown**, here in front of
    the index. -/
theorem context_takes_more_bytes : ∃ h o place, withBrackets strictLanguage = .ok h ∧ Built h ∧
    h.Gives farText o ∧ o.illegalBy? = some place ∧ place.index = 101 ∧
    ¬∃ front lead tail back, place.Shows farText front lead tail back ∧
      lead.utf8ByteSize ≤ contextBytes ∧ tail.utf8ByteSize ≤ contextBytes := by
  obtain ⟨h, o, place, hh, hb, hg, hplace, hindex, hcontext⟩ := exists_place_farText
  refine ⟨h, o, place, hh, hb, hg, hplace, hindex, ?_⟩
  rintro ⟨front, lead, tail, back, hshows, hlead, -⟩
  have hsize := congrArg String.utf8ByteSize hshows.code
  have hshown := congrArg String.utf8ByteSize (hcontext.symm.trans hshows.context)
  have hsplit := hshows.index
  rw [hindex] at hsplit
  simp only [String.utf8ByteSize_append] at hsize hshown hsplit
  -- all of the text is shown, so that nothing stands in front of it
  have hfront : front.utf8ByteSize = 0 := by omega
  have hcontextBytes : contextBytes = 100 := rfl
  omega

end Highlight.Highlighter
