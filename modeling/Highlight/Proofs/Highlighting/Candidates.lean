import Highlight.Proofs.Highlighting.Detection

/-!
# Which candidates count

A candidate is a name, in any letter case, which may stand for no language, for one that is not
among those to choose from, or for one that an earlier candidate stands for. None of these counts.

* `usable` -- the languages that the candidates stand for, as far as they count;
* `takingPart_of_usable` -- who takes part is known from these;
* `Lengthened` -- that candidates that do not count have been added to a list;
* `usable_of_lengthened` -- they leave what is usable as it is;
* `detection_of_usable_candidates` -- the result.
-/

namespace Highlight.Highlighter

variable {h : Highlighter} {x name : String} {cs cs' listed : List String}

/-! ## 1. Usable candidates -/

/-- The language that a candidate stands for, if it is among those to choose from. -/
def candidate? (h : Highlighter) (x : String) : Option String :=
  (h.canonicalName x).filter h.autoDetection

/-- **The languages that candidates stand for**, by their own names: unknown ones and those that are
    not to be chosen from are left out, and of several candidates for a language the first one
    counts. -/
def usable (h : Highlighter) (cs : List String) : List String :=
  ((cs.filterMap h.canonicalName).filter h.autoDetection).eraseDups

theorem usable_eq (h : Highlighter) (cs : List String) :
    h.usable cs = (cs.filterMap h.candidate?).eraseDups := by
  unfold usable
  rw [List.filter_filterMap]
  rfl

/-- It does not matter whether the first ones are kept before or after some are left out. -/
theorem eraseDups_filter (p : String → Bool) : ∀ names : List String,
    (names.filter p).eraseDups = names.eraseDups.filter p
  | [] => rfl
  | name :: names => by
      have hswap : (names.filter p).filter (fun n => !n == name) =
          (names.filter fun n => !n == name).filter p := by
        simp only [List.filter_filter, Bool.and_comm]
      rw [List.eraseDups_cons, List.filter_cons, List.filter_cons]
      have ih := eraseDups_filter p (names.filter fun n => !n == name)
      cases hp : p name with
      | true =>
        rw [if_pos rfl, if_pos rfl, List.eraseDups_cons, hswap, ih]
      | false =>
        -- What is left out anyway need not be left out once more.
        have hgone : (names.filter fun n => !n == name).filter p = names.filter p := by
          rw [List.filter_filter]
          refine List.filter_congr fun n _ => ?_
          by_cases hn : n = name
          · rw [hn, hp, Bool.false_and]
          · rw [beq_false_of_ne hn, Bool.not_false, Bool.and_true]
        rw [if_neg Bool.false_ne_true, if_neg Bool.false_ne_true, ← ih, hgone]
  termination_by names => names.length
  decreasing_by exact Nat.lt_succ_of_le (List.length_filter_le _ names)

/-- Who takes part among some candidates is who is usable among them. -/
theorem takingPart_of_usable (h : Highlighter) (cs : List String) :
    h.takingPart (some cs) = h.usable cs := by
  rw [takingPart_eq, usable, eraseDups_filter]
  rfl

/-! ## 2. Candidates that do not count -/

/-- **That a candidate does not count after others**: it stands for no language, for one that is not
    to be chosen from, or for one that is listed already. -/
inductive Idle (h : Highlighter) (listed : List String) (x : String) : Prop
  | unknown (hx : h.canonicalName x = none)
  | disabled {name : String} (hx : h.canonicalName x = some name)
      (hname : h.autoDetection name = false)
  | spelling {y : String} (hy : y ∈ listed) (hx : h.canonicalName x = h.canonicalName y)

/-- **That candidates that do not count have been added to a list**, at any places. `listed` are the
    candidates that stand earlier. -/
inductive Lengthened (h : Highlighter) : List String → List String → List String → Prop
  | none {listed : List String} : Lengthened h listed [] []
  | kept {listed : List String} (x : String) {cs cs' : List String} :
      Lengthened h (x :: listed) cs cs' → Lengthened h listed (x :: cs) (x :: cs')
  | added {listed : List String} {x : String} {cs cs' : List String} :
      Idle h listed x → Lengthened h listed cs cs' → Lengthened h listed cs (x :: cs')

/-- A candidate that does not count stands for nothing usable, or for something listed. -/
theorem Idle.mem_listed (hx : h.Idle listed x) (hname : h.candidate? x = some name) :
    name ∈ listed.filterMap h.candidate? := by
  unfold candidate? at hname
  cases hx with
  | unknown hx =>
    rw [hx] at hname
    cases hname
  | disabled hx hoff =>
    rw [hx, Option.filter_some_neg hoff] at hname
    cases hname
  | spelling hy hx =>
    rw [hx] at hname
    exact List.mem_filterMap.mpr ⟨_, hy, hname⟩

/-- What is usable among some candidates and is not listed earlier. -/
def usableAfter (h : Highlighter) (listed cs : List String) : List String :=
  ((cs.filterMap h.candidate?).filter fun n => !(listed.filterMap h.candidate?).contains n).eraseDups

theorem usableAfter_nil (h : Highlighter) (cs : List String) : h.usableAfter [] cs = h.usable cs := by
  rw [usable_eq, usableAfter]
  congr 1
  exact List.filter_eq_self.mpr fun _ _ => rfl

/-- A candidate for nothing that is not listed leaves what is usable as it is. -/
theorem usableAfter_skip (hx : ∀ name, h.candidate? x = some name →
    name ∈ listed.filterMap h.candidate?) :
    h.usableAfter listed (x :: cs) = h.usableAfter listed cs := by
  unfold usableAfter
  cases hc : h.candidate? x with
  | none => rw [List.filterMap_cons_none hc]
  | some name =>
    rw [List.filterMap_cons_some hc, List.filter_cons, if_neg]
    rw [List.contains_iff_mem.mpr (hx name hc)]
    exact Bool.false_ne_true

/-- A candidate for something listed may be listed as well. -/
theorem usableAfter_listed (hx : ∀ name, h.candidate? x = some name →
    name ∈ listed.filterMap h.candidate?) :
    h.usableAfter (x :: listed) cs = h.usableAfter listed cs := by
  unfold usableAfter
  congr 2
  funext n
  refine congrArg (!·) (Bool.eq_iff_iff.mpr ?_)
  rw [List.contains_iff_mem, List.contains_iff_mem]
  cases hc : h.candidate? x with
  | none => rw [List.filterMap_cons_none hc]
  | some name =>
    rw [List.filterMap_cons_some hc, List.mem_cons]
    exact ⟨fun hn => hn.elim (fun hn => hn ▸ hx name hc) id, .inr⟩

/-- The first candidate for something usable counts, and others for it do not any more. -/
theorem usableAfter_first (hx : h.candidate? x = some name)
    (hnew : name ∉ listed.filterMap h.candidate?) :
    h.usableAfter listed (x :: cs) = name :: h.usableAfter (x :: listed) cs := by
  unfold usableAfter
  rw [List.filterMap_cons_some hx, List.filterMap_cons_some hx, List.filter_cons, if_pos]
  · rw [List.eraseDups_cons, List.filter_filter]
    congr 3
    funext n
    rw [List.contains_cons, Bool.not_or]
  · rw [Bool.not_eq_true', Bool.eq_false_iff, Ne, List.contains_iff_mem]
    exact hnew

/-- Candidates that do not count leave what is usable as it is. -/
theorem usableAfter_of_lengthened (hp : h.Lengthened listed cs cs') :
    h.usableAfter listed cs' = h.usableAfter listed cs := by
  induction hp with
  | none => rfl
  | @kept listed x cs cs' _ ih =>
    by_cases hx : ∀ name, h.candidate? x = some name → name ∈ listed.filterMap h.candidate?
    · rw [usableAfter_skip hx, usableAfter_skip hx, ← usableAfter_listed hx, ih,
        usableAfter_listed hx]
    · push Not at hx
      obtain ⟨name, hx, hnew⟩ := hx
      rw [usableAfter_first hx hnew, usableAfter_first hx hnew, ih]
  | added hx _ ih => rw [usableAfter_skip fun _ => hx.mem_listed, ih]

theorem usable_of_lengthened (hp : h.Lengthened [] cs cs') : h.usable cs' = h.usable cs := by
  rw [← usableAfter_nil, usableAfter_of_lengthened hp, usableAfter_nil]

/-! ## 3. The result -/

/-- **Detection depends only on the usable candidates.** Lists of candidates that stand for the same
    usable languages in the same order have the same answer, whether an outcome with the next best
    one or a fault; and candidates that do not count, wherever they are added, leave it as it is. -/
theorem detection_of_usable_candidates (h : Highlighter) (code : String) :
    (∀ cs cs' : List String, h.usable cs = h.usable cs' →
      h.highlightAuto code (some cs) = h.highlightAuto code (some cs')) ∧
    (∀ cs cs' : List String, h.Lengthened [] cs cs' →
      h.highlightAuto code (some cs') = h.highlightAuto code (some cs)) := by
  have hsame : ∀ cs cs' : List String, h.usable cs = h.usable cs' →
      h.highlightAuto code (some cs) = h.highlightAuto code (some cs') := by
    intro cs cs' heq
    unfold highlightAuto
    rw [detect_eq, detect_eq, takingPart_of_usable, takingPart_of_usable, heq]
  exact ⟨hsame, fun cs cs' hp => hsame cs' cs (usable_of_lengthened hp)⟩

/-- A language, one that extends it, and one that is not to be chosen from. -/
def baseExtendedAndHidden : Except Fault Highlighter := do
  let h ← baseAndExtended
  h.register "hidden" (.constant { mode := {}, disableAutodetect := true })

/-- Unknown names, a hidden language and a language in other letters do not count. -/
theorem spellings_do_not_count : ∃ h d, baseExtendedAndHidden = .ok h ∧
    (h.highlightAuto "foo" (some ["BASE", "extended"])).result = .ok d ∧
    d.best.language = some "extended" ∧ d.secondBest.bind (·.language) = some "base" ∧
    h.usable ["none", "base", "Base", "EXTENDED"] = h.usable ["BASE", "extended"] ∧
    h.highlightAuto "foo" (some ["none", "base", "Base", "EXTENDED"]) =
      h.highlightAuto "foo" (some ["BASE", "extended"]) ∧
    h.Lengthened [] ["BASE", "extended"] ["BASE", "none", "extended", "hidden", "base"] ∧
    h.highlightAuto "foo" (some ["BASE", "none", "extended", "hidden", "base"]) =
      h.highlightAuto "foo" (some ["BASE", "extended"]) := by
  have hcheck : passes baseExtendedAndHidden (fun h =>
      h.usable ["none", "base", "Base", "EXTENDED"] == h.usable ["BASE", "extended"] &&
      (h.canonicalName "none" == none && h.canonicalName "hidden" == some "hidden" &&
        !h.autoDetection "hidden" && h.canonicalName "base" == h.canonicalName "BASE") &&
      passes (h.highlightAuto "foo" (some ["BASE", "extended"])).result fun d =>
        d.best.language == some "extended" &&
          d.secondBest.bind (·.language) == some "base") = true := by decide +kernel
  obtain ⟨h, hh, hcheck⟩ := exists_of_passes hcheck
  simp only [Bool.and_eq_true, beq_iff_eq, Bool.not_eq_true'] at hcheck
  obtain ⟨⟨husable, ⟨⟨hnone, hhidden⟩, hoff⟩, hspelling⟩, hrun⟩ := hcheck
  obtain ⟨d, hd, hfound⟩ := exists_of_passes hrun
  simp only [Bool.and_eq_true, beq_iff_eq] at hfound
  have hlengthened : h.Lengthened [] ["BASE", "extended"] ["BASE", "none", "extended", "hidden", "base"] :=
    .kept _ <| .added (.unknown hnone) <| .kept _ <| .added (.disabled hhidden hoff) <|
      .added (.spelling (List.mem_cons_of_mem _ List.mem_cons_self) hspelling) .none
  exact ⟨h, d, hh, hd, hfound.1, hfound.2, husable,
    (detection_of_usable_candidates h "foo").1 _ _ husable, hlengthened,
    (detection_of_usable_candidates h "foo").2 _ _ hlengthened⟩

end Highlight.Highlighter
