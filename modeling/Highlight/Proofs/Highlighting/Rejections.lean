import Highlight.Proofs.Dictionaries
import Highlight.Proofs.Highlighting.Answers
import Highlight.Proofs.Highlighting.Asking
import Highlight.Proofs.Highlighting.Outcomes
import Highlight.Proofs.Scan.Trimmed

/-!
# Beginnings that never count

Two highlighters have the same languages but for some beginnings that never count, which the second
does not have. A text comes to the same in both, unless the guard ends a run.

* `TrimsLanguage`, `Trims` -- the languages, and the highlighters;
* `canonicalName_same`, `language?_same`, `participants_same` -- what is asked of them;
* `SameTop`, `SameOutcome` -- what runs come to;
* `agrees_runArena`, `agrees_detect`, `agrees_runAt` -- a run, a detection, runs inside runs;
* `LeavesOut`, `trims_of_leavesOut` -- languages as they are written;
* `rejections_are_transparent` -- all of it.
-/

namespace Highlight.Highlighter

open Highlight.Arena (SameWritten TrimmedBy TrimmedLanguage WellNamed Within Written compileLanguage
  header_of_compileLanguage trims_of_trimmedLanguage)
open Highlight.Grammar (Contained Hook Language Mode Shared)
open Highlight.Scan
open Highlight.Scan.Attempt

/-! ## 1. The highlighters -/

/-- A language, and the same one without some beginnings that never count. Both are candidates for
    the same texts. -/
structure TrimsLanguage (R : Nat → Nat → Prop) (arena arena' : Arena) : Prop where
  trims : Scan.Trims R arena arena'
  autodetect : arena'.disableAutodetect = arena.disableAutodetect
  superset : arena'.supersetOf = arena.supersetOf

/-- **Languages, and the same ones without some beginnings that never count**, under the same names.
    `R` relates the numbers of modes, for each language by its own name. -/
structure Trims (R : String → Nat → Nat → Prop) (h h' : Highlighter) : Prop where
  options : h'.options = h.options
  aliases : h'.aliases = h.aliases
  registered : List.Forall₂ (fun e e' => e'.1 = e.1 ∧ TrimsLanguage (R e.1) e.2.arena e'.2.arena)
    h.registered.entries h'.registered.entries

variable {R : String → Nat → Nat → Prop} {h h' : Highlighter} {code : String}
  {ignoreIllegals : Bool} {c c' : Option (List Nat)} {name : String}

section Same

variable (hh : Trims R h h')

include hh

theorem registered_same (key : String) :
    Option.Rel (fun r r' : Registration => TrimsLanguage (R key) r.arena r'.arena)
      (h.registered.get? key) (h'.registered.get? key) :=
  rel_mono (rel_valueOf? (fun _ _ he => he.1) hh.registered key) fun _ _ he => he.2

theorem canonicalName_same : h'.canonicalName = h.canonicalName :=
  canonicalName_congr (funext fun key => isSome_of_rel (registered_same hh key)) hh.aliases

/-- The numbers of modes are related for the language that a name stands for. -/
theorem language?_same (name : String) :
    Option.Rel (fun a a' => ∃ key, h.canonicalName name = some key ∧ TrimsLanguage (R key) a a')
      (h.language? name) (h'.language? name) := by
  unfold language?
  rw [canonicalName_same hh]
  cases hname : h.canonicalName name with
  | none => exact .none
  | some key =>
    have hkey := registered_same hh key
    simp only [Option.bind_eq_bind, Option.bind_some]
    generalize h.registered.get? key = r at hkey ⊢
    generalize h'.registered.get? key = r' at hkey ⊢
    cases hkey with
    | none => exact .none
    | some htrims => exact .some ⟨key, rfl, htrims⟩

theorem languages_same : h'.languages = h.languages := by
  have hregistered := hh.registered
  unfold languages Dictionary.keys
  generalize h.registered.entries = es at hregistered ⊢
  generalize h'.registered.entries = es' at hregistered ⊢
  induction hregistered with
  | nil => rfl
  | cons he _ ih => rw [List.map_cons, List.map_cons, he.1, ih]

theorem autoDetection_same (name : String) : h'.autoDetection name = h.autoDetection name := by
  have hlanguage := language?_same hh name
  unfold autoDetection
  generalize h.language? name = a at hlanguage ⊢
  generalize h'.language? name = a' at hlanguage ⊢
  cases hlanguage with
  | none => rfl
  | some ha =>
    obtain ⟨_, _, ha⟩ := ha
    simp only [Option.any_some, ha.autodetect]

theorem supersetOf_same (name : String) : h'.supersetOf name = h.supersetOf name := by
  have hlanguage := language?_same hh name
  unfold supersetOf
  generalize h.language? name = a at hlanguage ⊢
  generalize h'.language? name = a' at hlanguage ⊢
  cases hlanguage with
  | none => rfl
  | some ha =>
    obtain ⟨_, _, ha⟩ := ha
    simp only [Option.bind_eq_bind, Option.bind_some, ha.superset, canonicalName_same hh]

theorem participants_same : h'.participants = h.participants := by
  funext seen names
  exact participants_congr (canonicalName_same hh) (funext (autoDetection_same hh)) names seen

end Same

/-! ## 2. What runs come to -/

/-- **The same modes are open at the end of a run** in the language that a name stands for. -/
def SameTop (R : String → Nat → Nat → Prop) (h h' : Highlighter) (name : String)
    (top top' : List Nat) : Prop :=
  ∃ key arena arena', h.canonicalName name = some key ∧ h.language? name = some arena ∧
    h'.language? name = some arena' ∧ SameStack (R key) arena arena' top top'

/-- The labels of the modes that are open. -/
def shownTop (h : Highlighter) (name : String) (top : List Nat) : List (Option String) :=
  match h.language? name with
  | some arena => top.map fun id => (arena.mode id).scope
  | none => []

theorem SameTop.shown (hh : Trims R h h') {top top' : List Nat}
    (ht : SameTop R h h' name top top') : h'.shownTop name top' = h.shownTop name top := by
  obtain ⟨key, arena, arena', hkey, harena, harena', hstack⟩ := ht
  have hlanguage := language?_same hh name
  rw [harena, harena'] at hlanguage
  cases hlanguage with
  | some hlanguage =>
    obtain ⟨_, hkey', htrims⟩ := hlanguage
    cases hkey.symm.trans hkey'
    unfold shownTop
    rw [harena, harena']
    have hmodes := hstack.modes
    simp only
    clear hstack
    induction hmodes with
    | nil => rfl
    | cons hid _ ih =>
      obtain ⟨_, _, _, hmode⟩ := (htrims.trims.same.modes hid).same
      rw [List.map_cons, List.map_cons, ih, hmode]

/-- **The same outcome**: the same tree, relevance, and fault, up to the numbers of the modes that
    are open at the end. -/
structure SameOutcome (T : List Nat → List Nat → Prop) (o o' : Outcome) : Prop where
  language : o'.language = o.language
  ending : o'.ending = o.ending
  relevance : o'.relevance = o.relevance
  events : o'.events = o.events
  top : T o.top o'.top

theorem SameOutcome.mono {T T' : List Nat → List Nat → Prop} {o o' : Outcome}
    (ho : SameOutcome T o o') (hT : ∀ t t', T t t' → T' t t') : SameOutcome T' o o' :=
  { ho with top := hT _ _ ho.top }

theorem SameOutcome.toNested {T : List Nat → List Nat → Prop} {o o' : Outcome}
    (ho : SameOutcome T o o') : SameNested T o.toNested o'.toNested :=
  ⟨ho.language, ho.relevance, ho.events, ho.top⟩

/-- A run in a language that is the same but for beginnings that never count. -/
theorem agrees_runArena {Q : Nat → Nat → Prop} {T : String → List Nat → List Nat → Prop}
    (hoptions : h'.options = h.options) {d d' : Scan.Delegate} (hd : SameDelegate T d d')
    {arena arena' : Arena} (ht : Scan.Trims Q arena arena')
    (hc : Option.Rel (SameStack Q arena arena') c c') :
    Agrees (SameOutcome (SameStack Q arena arena'))
      (h.runArena d arena code ignoreIllegals c)
      (h'.runArena d' arena' code ignoreIllegals c') := by
  have hs : SameScene Q T (h.sceneOf d arena code ignoreIllegals)
      (h'.sceneOf d' arena' code ignoreIllegals) := ⟨ht.same, hoptions, rfl, rfl, hd⟩
  have hscan := same_scanAll hs ht hc
  have htop : ∀ {frames frames' : List Frame}, List.Forall₂ (SameFrame Q) frames frames' →
      SameStack Q arena arena' ((h.sceneOf d arena code ignoreIllegals).stack frames)
        ((h'.sceneOf d' arena' code ignoreIllegals).stack frames') := sameStack_stack hs ht
  unfold runArena
  generalize h.sceneOf d arena code ignoreIllegals = s at hscan htop ⊢
  generalize h'.sceneOf d' arena' code ignoreIllegals = s' at hscan htop ⊢
  simp only
  generalize scanAll s c = x at hscan ⊢
  generalize scanAll s' c' = x' at hscan ⊢
  cases hscan with
  | @guarded _ _ f hf hloop =>
    have hendless : f.cause.isEndless = true := by
      cases hcause : f.cause <;> rw [hcause] at hloop <;> first | rfl | cases hloop
    refine .inl ⟨f, ?_, hloop⟩
    simp only [conclude, hf, recover, hendless, Bool.true_or, if_true]
  | @same notes frames frames' events relevance fault hframes =>
    refine .inr ⟨rfl, ?_⟩
    simp only [conclude]
    cases fault with
    | none => exact .ok ⟨congrArg some ht.same.name, rfl, rfl, rfl, htop hframes⟩
    | some f =>
      simp only [recover, hoptions]
      split
      · exact .error f
      · exact .ok ⟨congrArg some ht.same.name, rfl, rfl, rfl, htop hframes⟩

/-! ## 3. The best of several languages -/

/-- The same modes are open at the end, in whichever language it is; none are in plain text. -/
def SameAnyTop (R : String → Nat → Nat → Prop) (h h' : Highlighter) (top top' : List Nat) : Prop :=
  (top = [] ∧ top' = []) ∨ ∃ name, SameTop R h h' name top top'

/-- The same outcome is the best, and the same one the next best. -/
structure SameDetection (T : List Nat → List Nat → Prop) (d d' : Detection) : Prop where
  best : SameOutcome T d.best d'.best
  secondBest : Option.Rel (SameOutcome T) d.secondBest d'.secondBest

section Detection

variable {T : List Nat → List Nat → Prop} {o o' : Outcome} {os os' : List Outcome}

theorem agrees_tryAll {run run' : String → Attempt Outcome} {names : List String}
    (hrun : ∀ name ∈ names, Agrees (SameOutcome T) (run name) (run' name)) :
    Agrees (List.Forall₂ (SameOutcome T)) (tryAll run names) (tryAll run' names) := by
  induction names with
  | nil => exact agrees_pure .nil
  | cons name names ih =>
    have hfirst := hrun name List.mem_cons_self
    have hothers := ih fun n hn => hrun n (List.mem_cons_of_mem name hn)
    rw [tryAll_cons, tryAll_cons]
    rcases hfirst with ⟨f, hf, hloop⟩ | ⟨hnotes, hresult⟩
    · have hillegal : f.cause.isIllegal = false := by
        cases hcause : f.cause <;> rw [hcause] at hloop <;> first | rfl | cases hloop
      refine .inl ⟨f, ?_, hloop⟩
      simp only [withOthers, hf, hillegal, Bool.false_eq_true, if_false]
    · unfold withOthers
      rw [hnotes]
      generalize (run name).result = x at hresult ⊢
      generalize (run' name).result = x' at hresult ⊢
      cases hresult with
      | ok ho =>
        rcases hothers with ⟨f, hf, hloop⟩ | ⟨hmore, hrest⟩
        · refine .inl ⟨f, ?_, hloop⟩
          simp only [hf]
          rfl
        · refine .inr ⟨congrArg (_ ++ ·) hmore, ?_⟩
          simp only
          generalize (tryAll run names).result = y at hrest ⊢
          generalize (tryAll run' names).result = y' at hrest ⊢
          cases hrest with
          | ok hos => exact .ok (.cons ho hos)
          | error f => exact .error f
      | error f =>
        simp only
        split
        · rcases hothers with hguarded | ⟨hmore, hrest⟩
          · exact .inl hguarded
          · exact .inr ⟨congrArg (_ ++ ·) hmore, hrest⟩
        · exact .inr ⟨rfl, .error f⟩

section Ranked

variable (hh : Trims R h h')

include hh

theorem rank_same {a a' b b' : Outcome} (ha : SameOutcome T a a') (hb : SameOutcome T b b') :
    h'.rank a' b' = h.rank a b := by
  unfold rank extendsLanguage
  rw [ha.relevance, hb.relevance, ha.language, hb.language]
  simp only [supersetOf_same hh]

theorem same_place (ho : SameOutcome T o o') (hos : List.Forall₂ (SameOutcome T) os os') :
    List.Forall₂ (SameOutcome T) (h.place o os) (h'.place o' os') := by
  induction hos with
  | nil => exact .cons ho .nil
  | cons hlast hearlier ih =>
    unfold place
    rw [rank_same hh ho hlast]
    split
    · exact .cons hlast ih
    · exact .cons ho (.cons hlast hearlier)

theorem same_choose (hos : List.Forall₂ (SameOutcome T) os os') (hnone : T [] []) :
    SameDetection T (h.choose code os) (h'.choose code os') := by
  have hfold : ∀ {placed placed' : List Outcome}, List.Forall₂ (SameOutcome T) placed placed' →
      List.Forall₂ (SameOutcome T) (os.foldl (fun placed o => h.place o placed) placed)
        (os'.foldl (fun placed o => h'.place o placed) placed') := by
    induction hos with
    | nil => exact id
    | cons ho _ ih => exact fun hplaced => ih (same_place hh ho hplaced)
  have hranked : List.Forall₂ (SameOutcome T) (h.ranked os) (h'.ranked os') :=
    List.rel_reverse (hfold .nil)
  unfold choose
  generalize h.ranked os = ranked at hranked ⊢
  generalize h'.ranked os' = ranked' at hranked ⊢
  cases hranked with
  | nil => exact ⟨⟨rfl, rfl, rfl, rfl, hnone⟩, .none⟩
  | cons hbest hothers =>
    refine ⟨hbest, ?_⟩
    cases hothers with
    | nil => exact .none
    | cons hsecond _ => exact .some hsecond

/-- **The same languages fit best.** -/
theorem agrees_detect {run run' : String → Attempt Outcome}
    (hrun : ∀ name, Agrees (SameOutcome T) (run name) (run' name)) (hnone : T [] [])
    (candidates : Option (List String)) :
    Agrees (SameDetection T) (h.detect run candidates code) (h'.detect run' candidates code) := by
  unfold detect
  simp only [hh.options, languages_same hh, participants_same hh]
  refine agrees_bind (agrees_tryAll fun name _ => hrun name) fun os os' hos => agrees_pure ?_
  exact same_choose hh (.cons ⟨rfl, rfl, rfl, rfl, hnone⟩ hos) hnone

end Ranked

end Detection

/-! ## 4. Runs inside runs -/

section Nesting

variable (hh : Trims R h h') {run run' : Runner}
  (hrun : ∀ name code ignoreIllegals {c c' : Option (List Nat)},
    Option.Rel (SameTop R h h' name) c c' →
    Agrees (SameOutcome (SameTop R h h' name)) (run name code ignoreIllegals c)
      (run' name code ignoreIllegals c'))

include hh hrun

theorem same_delegateTo :
    SameDelegate (SameTop R h h') (h.delegateTo run) (h'.delegateTo run') where
  single := fun name text c c' hc => by
    have hlanguage := language?_same hh name
    unfold delegateTo
    simp only
    generalize h.language? name = a at hlanguage ⊢
    generalize h'.language? name = a' at hlanguage ⊢
    cases hlanguage with
    | none => exact .none
    | some _ =>
      refine .some (agrees_bind (hrun name text true hc) fun o o' ho => agrees_pure ho.toNested)
  best := fun names text => by
    refine agrees_bind (agrees_detect (T := fun _ _ => True) hh (fun name => ?_) trivial _)
      fun d d' hd => agrees_pure hd.best.toNested
    exact agrees_mono (hrun name text false .none) fun _ _ ho => ho.mono fun _ _ _ => trivial

theorem agrees_runIn (name code : String) (ignoreIllegals : Bool)
    (hc : Option.Rel (SameTop R h h' name) c c') :
    Agrees (SameOutcome (SameTop R h h' name)) (h.runIn run name code ignoreIllegals c)
      (h'.runIn run' name code ignoreIllegals c') := by
  have hlanguage := language?_same hh name
  unfold runIn
  cases ha : h.language? name with
  | none =>
    cases ha' : h'.language? name with
    | none => exact agrees_fail _
    | some _ =>
      rw [ha, ha'] at hlanguage
      cases hlanguage
  | some arena =>
    cases ha' : h'.language? name with
    | none =>
      rw [ha, ha'] at hlanguage
      cases hlanguage
    | some arena' =>
      rw [ha, ha'] at hlanguage
      cases hlanguage with
      | some htrims =>
        obtain ⟨key, hkey, htrims⟩ := htrims
        have hstack : Option.Rel (SameStack (R key) arena arena') c c' := by
          cases hc with
          | none => exact .none
          | some htop =>
            obtain ⟨_, _, _, hkey', harena, harena', hstack⟩ := htop
            cases hkey.symm.trans hkey'
            cases ha.symm.trans harena
            cases ha'.symm.trans harena'
            exact .some hstack
        refine agrees_mono
          (agrees_runArena hh.options (same_delegateTo hh hrun) htrims.trims hstack)
          fun _ _ ho => ho.mono fun _ _ hend => ⟨key, arena, arena', hkey, ha, ha', hend⟩

end Nesting

/-- **Runs inside runs come to the same**, however deep they may lie. -/
theorem agrees_runAt (hh : Trims R h h') : ∀ (depth : Nat) (name code : String)
    (ignoreIllegals : Bool) {c c' : Option (List Nat)}, Option.Rel (SameTop R h h' name) c c' →
    Agrees (SameOutcome (SameTop R h h' name)) (h.runAt depth name code ignoreIllegals c)
      (h'.runAt depth name code ignoreIllegals c')
  | 0, _, _, _, _, _, _ => agrees_fail _
  | depth + 1, name, code, ignoreIllegals, _, _, hc =>
      agrees_runIn hh (fun name code ignoreIllegals _ _ hc =>
        agrees_runAt hh depth name code ignoreIllegals hc) name code ignoreIllegals hc

/-! ## 5. Languages as they are written -/

/-- **A language is compiled with some entries that never begin, and without them.** No end reads
    nothing where one of their beginnings matches, and merged patterns find what their rules find by
    themselves. -/
structure LanguageLeavesOut (name : String) (l l' : Language) (arena arena' : Arena) : Prop where
  trimmed : TrimmedLanguage l l'
  compiled : compileLanguage name l = .ok arena
  compiled' : compileLanguage name l' = .ok arena'
  extensions : l.extensions = []
  root : l.mode.starts = none
  named : WellNamed l
  named' : WellNamed l'
  quiet : arena.Quiet
  apart : arena.ReadsApart
  apart' : arena'.ReadsApart

/-- **The same languages, without some entries that never begin.** `G` and `G'` are the grammars by
    the names of the languages. -/
structure LeavesOut (G G' : String → Language) (h h' : Highlighter) : Prop where
  options : h'.options = h.options
  aliases : h'.aliases = h.aliases
  registered : List.Forall₂ (fun e e' => e'.1 = e.1 ∧
      LanguageLeavesOut e.1 (G e.1) (G' e.1) e.2.arena e'.2.arena)
    h.registered.entries h'.registered.entries

/-- Modes of the language with a name that are written the same. -/
def Alike (G G' : String → Language) (name : String) (i i' : Nat) : Prop :=
  ∃ arena arena', compileLanguage name (G name) = .ok arena ∧
    compileLanguage name (G' name) = .ok arena' ∧ SameWritten (G name) (G' name) arena arena' i i'

variable {G G' : String → Language}

theorem trims_of_leavesOut (hh : LeavesOut G G' h h') : Trims (Alike G G') h h' where
  options := hh.options
  aliases := hh.aliases
  registered := hh.registered.imp fun e e' ⟨hname, hl⟩ => by
    have halike : Alike G G' e.1 = SameWritten (G e.1) (G' e.1) e.2.arena e'.2.arena := by
      funext i i'
      refine propext ⟨fun ⟨_, _, hc, hc', hsame⟩ => ?_, fun hsame =>
        ⟨_, _, hl.compiled, hl.compiled', hsame⟩⟩
      cases hl.compiled.symm.trans hc
      cases hl.compiled'.symm.trans hc'
      exact hsame
    obtain ⟨_, hautodetect, hsuperset, _⟩ := header_of_compileLanguage hl.compiled
    obtain ⟨_, hautodetect', hsuperset', _⟩ := header_of_compileLanguage hl.compiled'
    refine ⟨hname, ?_, ?_, ?_⟩
    · rw [halike]
      exact trims_of_trimmedLanguage hl.trimmed hl.extensions hl.root hl.named hl.named' hl.compiled
        hl.compiled' hl.quiet hl.apart hl.apart'
    · rw [hautodetect, hautodetect', hl.trimmed.same]
    · rw [hsuperset, hsuperset', hl.trimmed.same]

/-! ## 6. What is asked for -/

/-- **Beginnings that never count leave no trace.** Whatever is asked for, languages without them
    come to the same tree, relevance and faults, and to the same open modes at the end, unless the
    guard ends the run in the languages with them. -/
theorem rejections_are_transparent (hh : LeavesOut G G' h h') :
    (∀ name code ignoreIllegals c c', Option.Rel (SameTop (Alike G G') h h' name) c c' →
      ¬(h.highlight name code ignoreIllegals c).Guarded →
      (h.highlight name code ignoreIllegals c).notes =
          (h'.highlight name code ignoreIllegals c').notes ∧
        SameResult (SameOutcome fun top top' => SameTop (Alike G G') h h' name top top' ∧
            h'.shownTop name top' = h.shownTop name top)
          (h.highlight name code ignoreIllegals c).result
          (h'.highlight name code ignoreIllegals c').result) ∧
    ∀ code candidates, ¬(h.highlightAuto code candidates).Guarded →
      (h.highlightAuto code candidates).notes = (h'.highlightAuto code candidates).notes ∧
        SameResult (SameDetection (SameAnyTop (Alike G G') h h'))
          (h.highlightAuto code candidates).result
          (h'.highlightAuto code candidates).result := by
  have ht := trims_of_leavesOut hh
  have hdepth : ∀ code, h'.depthFor code = h.depthFor code := by
    intro code
    unfold depthFor Dictionary.size
    rw [hh.registered.length_eq]
  refine ⟨fun name code ignoreIllegals c c' hc hguard => ?_, fun code candidates hguard => ?_⟩
  · unfold highlight at hguard ⊢
    rw [hdepth]
    refine (agrees_mono (agrees_runAt ht _ name code ignoreIllegals hc) fun _ _ ho =>
      ho.mono fun _ _ htop => ⟨htop, htop.shown ht⟩).resolve_left hguard
  · unfold highlightAuto at hguard ⊢
    rw [hdepth]
    refine (agrees_detect ht (fun name => ?_) (.inl ⟨rfl, rfl⟩) candidates).resolve_left hguard
    exact agrees_mono (agrees_runAt ht _ name code false .none) fun _ _ ho =>
      ho.mono fun _ _ hend => .inr ⟨name, hend⟩

/-- The hook that turns every match down. -/
def rejectAll : Hook := ⟨fun _ data => ⟨.ignore, data, []⟩⟩

/-- A mode that never begins. -/
def crossed : Mode where
  beginPattern := some (.single "x")
  endPattern := some (.single "y")
  onBegin := some rejectAll

/-- A mode between angle brackets, or one that ends otherwise. -/
def angle (ending : String) (contains : List (Contained Mode)) : Mode where
  scope := some (.single "m")
  beginPattern := some (.single "<")
  endPattern := some (.single ending)
  contains := some contains

/-- The mode that never begins, as an entry. -/
def cross : Shared Mode := ⟨[("cross", 0)], crossed⟩

/-- A language with such a mode, in which another never begins. -/
def angled (ending : String) (contains : List (Contained Mode)) : Language where
  mode := { contains := some [.mode ⟨[("angle", 0)], angle ending contains⟩] }

theorem wellNamed_angled (ending : String) {contains : List (Contained Mode)}
    (h : ∀ c ∈ contains, c = .mode cross) : WellNamed (angled ending contains) := by
  have hwithin : ∀ {v : Mode}, Within (angled ending contains) v →
      v = (angled ending contains).mode ∨ v = angle ending contains ∨ v = crossed := by
    intro v hv
    induction hv with
    | root => exact .inl rfl
    | named hm => cases hm
    | contained _ hm ih =>
      rcases ih with rfl | rfl | rfl
      · cases List.mem_singleton.mp hm
        exact .inr (.inl rfl)
      · cases h _ hm
        exact .inr (.inr rfl)
      · cases hm
    | variant _ hu ih =>
      rcases ih with rfl | rfl | rfl <;> cases hu
    | started _ hs ih =>
      rcases ih with rfl | rfl | rfl <;> cases hs
  have hwritten : ∀ {m : Shared Mode}, Written (angled ending contains) m →
      m = ⟨[("angle", 0)], angle ending contains⟩ ∨ m = cross := by
    intro m hm
    cases hm with
    | named hm => cases hm
    | contained hv hm =>
      rcases hwithin hv with rfl | rfl | rfl
      · cases List.mem_singleton.mp hm
        exact .inl rfl
      · cases h _ hm
        exact .inr rfl
      · cases hm
    | started hv hs =>
      rcases hwithin hv with rfl | rfl | rfl <;> cases hs
  constructor
  · intro m m' hm hm' hid
    rcases hwritten hm with rfl | rfl <;> rcases hwritten hm' with rfl | rfl <;>
      first | rfl | exact absurd hid (by simp [cross])
  · intro m word i rest hm hid
    rcases hwritten hm with rfl | rfl <;> cases hid <;> decide

theorem trimmed_angled (ending : String) :
    TrimmedLanguage (angled ending [.mode cross]) (angled ending []) where
  same := rfl
  repository := fun _ => .none
  mode := by
    refine TrimmedBy.trimmed ⟨rfl, .some (.keep (.mode ?_) .nil), .none, .none⟩
    refine TrimmedBy.trimmed ⟨rfl, .some (.leave ?_ .nil), .none, .none⟩
    intro s hs b hb
    cases hs
    rw [List.mem_singleton.mp hb]
    exact ⟨rfl, rejectAll, rfl, fun _ _ => ⟨rfl, rfl⟩⟩

/-- A highlighter with one language. -/
def withLanguage (arena : Arena) (l : Language) : Highlighter where
  registered := Dictionary.empty.insert "l" ⟨arena, .constant l⟩

theorem register_withLanguage {l : Language} {arena : Arena}
    (hc : compileLanguage "l" l = .ok arena) (haliases : l.aliases = []) :
    (new {}).register "l" (.constant l) = .ok (withLanguage arena l) := by
  have hlower : Text.lowered "l" = "l" := by decide +kernel
  have hnone : arena.aliases = [] := (header_of_compileLanguage hc).1.trans haliases
  simp only [register, hlower, show (Supply.constant l).next = l from rfl, hc]
  simp [bind, Except.bind, registerAliases, hnone, withLanguage, new]
  rfl

/-- A letter that never begins a mode leaves no trace between angle brackets. -/
theorem cross_leaves_no_trace : ∃ h h',
    (new {}).register "l" (.constant (angled ">" [.mode cross])) = .ok h ∧
    (new {}).register "l" (.constant (angled ">" [])) = .ok h' ∧
    ¬(h.highlight "l" "<x>" false none).Guarded ∧
    SameResult (SameOutcome fun top top' =>
        SameTop (Alike (fun _ => angled ">" [.mode cross]) fun _ => angled ">" []) h h' "l"
          top top' ∧ h'.shownTop "l" top' = h.shownTop "l" top)
      (h.highlight "l" "<x>" false none).result (h'.highlight "l" "<x>" false none).result := by
  have hcheck : passes (compileLanguage "l" (angled ">" [.mode cross])) (fun arena =>
      arena.isLetters && passes (withLanguage arena (angled ">" [.mode cross])
        |>.highlight "l" "<x>" false none).result fun _ => true) = true := by decide +kernel
  have hcheck' : passes (compileLanguage "l" (angled ">" [])) (·.isLetters) = true := by
    decide +kernel
  obtain ⟨arena, hc, hcheck⟩ := exists_of_passes hcheck
  obtain ⟨arena', hc', hletters'⟩ := exists_of_passes hcheck'
  obtain ⟨hletters, hruns⟩ := (Bool.and_eq_true _ _).mp hcheck
  have hleaves : LeavesOut (fun _ => angled ">" [.mode cross]) (fun _ => angled ">" [])
      (withLanguage arena (angled ">" [.mode cross])) (withLanguage arena' (angled ">" [])) :=
    ⟨rfl, rfl, .cons ⟨rfl, {
      trimmed := trimmed_angled ">"
      compiled := hc
      compiled' := hc'
      extensions := rfl
      root := rfl
      named := wellNamed_angled ">" fun c hc => List.mem_singleton.mp hc
      named' := wellNamed_angled ">" fun c hc => by cases hc
      quiet := Arena.quiet_of_isLetters hletters
      apart := Arena.apart_of_isLetters hletters
      apart' := Arena.apart_of_isLetters hletters' }⟩ .nil⟩
  have hguard : ¬((withLanguage arena (angled ">" [.mode cross])).highlight "l" "<x>" false
      none).Guarded := by
    rintro ⟨f, hf, _⟩
    rw [hf] at hruns
    cases hruns
  exact ⟨_, _, register_withLanguage hc rfl, register_withLanguage hc' rfl, hguard,
    ((rejections_are_transparent hleaves).1 "l" "<x>" false none none .none hguard).2⟩

/-- **Where an end reads nothing, a beginning that never counts can hide it**: the mode would end
    before the letter, but the beginning has just matched there. -/
theorem rejection_hides_empty_end :
    TrimmedLanguage (angled "(?=x)" [.mode cross]) (angled "(?=x)" []) ∧ ∃ h h' o o',
    (new {}).register "l" (.constant (angled "(?=x)" [.mode cross])) = .ok h ∧
    (new {}).register "l" (.constant (angled "(?=x)" [])) = .ok h' ∧
    (h.highlight "l" "<x" false none).result = .ok o ∧
    (h'.highlight "l" "<x" false none).result = .ok o' ∧
    o.relevance ≠ o'.relevance ∧ o.top ≠ o'.top := by
  have hcheck : passes ((new {}).register "l" (.constant
      (angled "(?=x)" [.mode cross]))) (fun h =>
      passes (h.highlight "l" "<x" false none).result fun o =>
        o.relevance == 0 && o.top == [0, 1]) = true := by decide +kernel
  have hcheck' : passes ((new {}).register "l" (.constant (angled "(?=x)" []))) (fun h =>
      passes (h.highlight "l" "<x" false none).result fun o =>
        o.relevance == 1 && o.top == [0]) = true := by decide +kernel
  obtain ⟨h, hh, hcheck⟩ := exists_of_passes hcheck
  obtain ⟨h', hh', hcheck'⟩ := exists_of_passes hcheck'
  obtain ⟨o, ho, hcheck⟩ := exists_of_passes hcheck
  obtain ⟨o', ho', hcheck'⟩ := exists_of_passes hcheck'
  simp only [Bool.and_eq_true, beq_iff_eq] at hcheck hcheck'
  refine ⟨trimmed_angled "(?=x)", h, h', o, o', hh, hh', ho, ho', ?_, ?_⟩
  · rw [hcheck.1, hcheck'.1]
    decide
  · rw [hcheck.2, hcheck'.2]
    decide

end Highlight.Highlighter
