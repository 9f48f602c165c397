import Highlight.Highlighting

/-!
# Highlighters that answer alike

What a highlighter answers is made of its options, the names of its languages, and what names stand
for. What its languages are built from next is not asked for.

* `SameAnswers` -- that two highlighters answer everything alike;
* `canonicalName_congr`, `participants_congr`, `choose_congr`, `detect_congr`, `runAt_congr` -- what is
  made of equal answers;
* `sameAnswers_of_languages` -- what highlighters must agree on to answer alike.
-/

namespace Highlight.Highlighter

open Highlight.Scan (Attempt)

/-- **That two highlighters answer alike**, whatever they are asked for. -/
structure SameAnswers (h h' : Highlighter) : Prop where
  options : h'.options = h.options
  languages : h'.languages = h.languages
  canonicalName : ∀ name, h'.canonicalName name = h.canonicalName name
  language? : ∀ name, h'.language? name = h.language? name
  autoDetection : ∀ name, h'.autoDetection name = h.autoDetection name
  highlight : ∀ name code ignoreIllegals continuation,
    h'.highlight name code ignoreIllegals continuation =
      h.highlight name code ignoreIllegals continuation
  highlightAuto : ∀ code candidates, h'.highlightAuto code candidates = h.highlightAuto code candidates

variable {h h' : Highlighter}

/-! ## 1. What is made of equal answers -/

/-- What names stand for is known from the further names and from which languages there are. -/
theorem canonicalName_congr (hcontains : h'.registered.contains = h.registered.contains)
    (haliases : h'.aliases = h.aliases) : h'.canonicalName = h.canonicalName := by
  funext name
  simp only [canonicalName, hcontains, haliases]

theorem language?_eq_map (h : Highlighter) (name : String) :
    h.language? name = ((h.canonicalName name).bind h.registered.get?).map (·.arena) := by
  unfold language?
  cases h.canonicalName name with
  | none => rfl
  | some canonical => cases hr : h.registered.get? canonical <;> simp [hr]

theorem autoDetection_congr (hlang : h'.language? = h.language?) :
    h'.autoDetection = h.autoDetection := by
  funext name
  simp only [autoDetection, hlang]

theorem rank_congr (hname : h'.canonicalName = h.canonicalName) (hlang : h'.language? = h.language?) :
    h'.rank = h.rank := by
  have hext : h'.extendsLanguage = h.extendsLanguage := by
    funext a b
    simp only [extendsLanguage, supersetOf, hname, hlang]
  funext a b
  simp only [rank, hext]

theorem place_congr (hrank : h'.rank = h.rank) (o : Outcome) : ∀ placed : List Outcome,
    h'.place o placed = h.place o placed
  | [] => rfl
  | last :: earlier => by rw [place, place, place_congr hrank o earlier, hrank]

theorem choose_congr (hrank : h'.rank = h.rank) : h'.choose = h.choose := by
  funext code os
  simp only [choose, ranked, place_congr hrank]

theorem participants_congr (hname : h'.canonicalName = h.canonicalName)
    (hauto : h'.autoDetection = h.autoDetection) : ∀ (cs seen : List String),
    h'.participants seen cs = h.participants seen cs
  | [], _ => rfl
  | c :: cs, seen => by
      simp only [participants, hname, hauto, participants_congr hname hauto cs]

/-! ## 2. Highlighters with the same languages -/

section Languages

variable (hoptions : h'.options = h.options) (hlanguages : h'.languages = h.languages)
  (hname : h'.canonicalName = h.canonicalName) (hlang : h'.language? = h.language?)

include hoptions hlanguages hname hlang

theorem detect_congr : h'.detect = h.detect := by
  funext run candidates code
  simp only [detect, hoptions, hlanguages, choose_congr (rank_congr hname hlang),
    participants_congr hname (autoDetection_congr hlang)]

/-- A run in a language comes to the same, if runs inside it do. -/
theorem runIn_congr (run : Runner) : h'.runIn run = h.runIn run := by
  have hdelegate : h'.delegateTo run = h.delegateTo run := by
    simp only [delegateTo, hlang, detect_congr hoptions hlanguages hname hlang]
  funext name code ignoreIllegals continuation
  simp only [runIn, hlang, hdelegate, runArena, sceneOf, conclude, recover, hoptions]

theorem runAt_congr : ∀ depth : Nat, h'.runAt depth = h.runAt depth
  | 0 => rfl
  | depth + 1 => by
      rw [runAt, runAt, runAt_congr depth, runIn_congr hoptions hlanguages hname hlang]

omit hoptions hname hlang in
theorem depthFor_congr : h'.depthFor = h.depthFor := by
  have hsize (h : Highlighter) : h.registered.size = h.languages.length := (List.length_map _).symm
  funext code
  simp only [depthFor, hsize, hlanguages]

/-- **Highlighters with the same options answer alike, if names stand for the same languages.** -/
theorem sameAnswers_of_languages : SameAnswers h h' where
  options := hoptions
  languages := hlanguages
  canonicalName name := congrFun hname name
  language? name := congrFun hlang name
  autoDetection name := congrFun (autoDetection_congr hlang) name
  highlight name code ignoreIllegals continuation := by
    rw [highlight, highlight, depthFor_congr hlanguages,
      runAt_congr hoptions hlanguages hname hlang]
  highlightAuto code candidates := by
    rw [highlightAuto, highlightAuto, depthFor_congr hlanguages,
      detect_congr hoptions hlanguages hname hlang]
    simp only [runAt_congr hoptions hlanguages hname hlang]

end Languages

end Highlight.Highlighter
