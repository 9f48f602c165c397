import Highlight.Proofs.Highlighting.Delegates
import Highlight.Proofs.Registry.Registered
import Highlight.Proofs.Scan.KeptText

/-!
# No text is lost, in any language

A run that hands text to other languages keeps it if they do. A nested run that is recovered from a
fault has told only a beginning of its text, so the languages that get text by name must not fail.

* `NeverPanics`, `TailsMerge` -- what keeps a language that gets text by name from failing;
* `Lossless` -- that all languages that a run may come to use keep text;
* `HandsLossless` -- that a language hands its text only to languages that keep it;
* `keeps_delegateTo` -- nested runs, at any depth;
* `text_is_kept` -- every run.
-/

namespace Highlight.Highlighter

open Highlight.Arena (compileLanguage)
open Highlight.Grammar (Hook HookData Language MatchView SubLanguage)
open Highlight.Scan (KeptUpTo Keeps Reached Regular StepFails TilesParts)
open Highlight.Token (textsOf)

/-! ## 1. What languages have to be like -/

/-- No hook of a language panics. -/
def NeverPanics (arena : Arena) : Prop :=
  ∀ (id : Nat) (hook : Hook), (arena.mode id).onBegin = some hook ∨ (arena.mode id).onEnd = some hook →
    ∀ (view : MatchView) (data : HookData) (message : String),
      (hook.call view data).verdict ≠ .panic message

/-- The rules of every mode can be merged from any of them on. -/
def TailsMerge (arena : Arena) : Prop :=
  ∀ id k, k < (arena.mode id).rules.size →
    ∃ merged, (arena.mode id).rules.mergedFrom k = .ok merged

/-- That a language gets text by name in a run in another language. -/
def GetsByName (h : Highlighter) (name : String) (inner : Arena) : Prop :=
  ∃ a arena id b, Involves h name a ∧ h.language? a = some arena ∧
    (arena.mode id).subLanguage = some (.single b) ∧ h.language? b = some inner

/-- **All languages that a run in a language may come to use keep text**: they are compiled without
    extensions, their flags do not contradict each other, the groups of their delimiters tile them,
    and no hook of one that gets text by name panics. -/
structure Lossless (h : Highlighter) (name : String) : Prop where
  compiled : ∀ a arena, Involves h name a → h.language? a = some arena →
    ∃ (n : String) (language : Language),
      compileLanguage n language = .ok arena ∧ language.extensions = []
  regular : ∀ a arena, Involves h name a → h.language? a = some arena → Regular arena
  tiled : ∀ a arena, Involves h name a → h.language? a = some arena → TilesParts arena
  handed : ∀ inner, GetsByName h name inner → NeverPanics inner

variable {h : Highlighter} {name : String} {arena : Arena}

theorem GetsByName.handsTo (harena : h.language? name = some arena) {id : Nat} {sub : SubLanguage}
    (hsub : (arena.mode id).subLanguage = some sub) {b : String} (hb : b ∈ h.handsTo sub)
    {inner : Arena} (hinner : GetsByName h b inner) : GetsByName h name inner := by
  obtain ⟨a, arena', id', b', ha, hrest⟩ := hinner
  exact ⟨a, arena', id', b', (Involves.handed .itself harena hsub hb).trans ha, hrest⟩

theorem Lossless.handsTo (hl : Lossless h name) (harena : h.language? name = some arena) {id : Nat}
    {sub : SubLanguage} (hsub : (arena.mode id).subLanguage = some sub) {b : String}
    (hb : b ∈ h.handsTo sub) : Lossless h b := by
  have hinvolved : Involves h name b := .handed .itself harena hsub hb
  exact ⟨fun a _ ha => hl.compiled a _ (hinvolved.trans ha),
    fun a _ ha => hl.regular a _ (hinvolved.trans ha),
    fun a _ ha => hl.tiled a _ (hinvolved.trans ha),
    fun inner hinner => hl.handed inner (hinner.handsTo harena hsub hb)⟩

/-! ## 2. One run -/

section Run

variable {delegate : Scan.Delegate} {code : String} {ignoreIllegals : Bool}
  {continuation : Option (List Nat)} {o : Outcome}

/-- A run in a language, whose delegate keeps text, keeps it too. -/
theorem kept_runArena (hl : Lossless h name) (harena : h.language? name = some arena)
    (hkeeps : Keeps (h.sceneOf delegate arena code ignoreIllegals)) :
    (∀ n r, Reached (h.sceneOf delegate arena code ignoreIllegals) continuation n r →
      KeptUpTo (h.sceneOf delegate arena code ignoreIllegals) r r.index ∧
        r.index ≤ (Text.ofString code).size) ∧
    ∀ o, (h.runArena delegate arena code ignoreIllegals continuation).result = .ok o →
      (o.ending = .completed → textsOf o.events = code) ∧
        (textsOf o.events).toList <+: code.toList := by
  obtain ⟨n, language, hc, hext⟩ := hl.compiled name arena .itself harena
  have hregular := hl.regular name arena .itself harena
  have htiled := hl.tiled name arena .itself harena
  have hundisturbed := Arena.undisturbed_mode hc hext
  refine ⟨fun n r hr => Scan.kept_reached hkeeps hregular hundisturbed htiled hr, fun o ho => ?_⟩
  obtain ⟨hdone, hprefix⟩ :=
    Scan.kept_scanAll hkeeps hregular hundisturbed htiled continuation
  have htext : (h.sceneOf delegate arena code ignoreIllegals).text.toStr = code :=
    Text.toStr_ofString code
  have hlist : (h.sceneOf delegate arena code ignoreIllegals).text.toList = code.toList := by
    show (Text.ofString code).toList = _
    simp [Text.ofString]
  rw [hlist] at hprefix
  rw [htext] at hdone
  obtain ⟨_, ⟨hfault, _, hevents⟩ | ⟨f, _, _, _, hending, hevents, _⟩⟩ := runArena_ok ho
  · rw [hevents]
    exact ⟨fun _ => hdone hfault, hprefix⟩
  · rw [hevents, Token.textsOf_append, Token.textsOf_singleton]
    refine ⟨fun h => absurd h hending, ?_⟩
    show (textsOf _ ++ "").toList <+: _
    rw [String.append_empty]
    exact hprefix

/-- **A language that gets text by name completes every run** that has an outcome. -/
theorem completed_of_handed {n : String} {language : Language}
    (hc : compileLanguage n language = .ok arena) (hpanics : NeverPanics arena)
    (hmerge : TailsMerge arena) {depth : Nat}
    (ho : (h.runArena (h.delegateTo (h.runAt depth)) arena code true continuation).result = .ok o) :
    o.ending = .completed := by
  obtain ⟨_, ⟨_, hending, _⟩ | ⟨f, hfault, hsafe, hends, _⟩⟩ := runArena_ok ho
  · exact hending
  · have hscene : compileLanguage n language =
        .ok (h.sceneOf (h.delegateTo (h.runAt depth)) arena code true).arena := hc
    exfalso
    rcases Scan.fault_scanAll hscene hfault with ⟨id, k, cause, hk, herror, _⟩ | hloses | hstep
    · obtain ⟨merged, hok⟩ := hmerge id k hk
      cases hok.symm.trans herror
    · cases hloses with
      | stopped _ _ _ => cases hends
    · cases hstep with
      | panicked i hhook hverdict => exact hpanics _ _ hhook _ _ _ hverdict
      | delegated hsub hfails =>
        obtain ⟨b, _, inner, ignore, c, hinner, hrun⟩ := fails_delegateTo hfails
        rw [endless_of_error hsafe hinner hrun] at hends
        cases hends
      | illegal _ _ _ hignore => cases hignore
      | zeroWidth _ hunsafe =>
        have hsafe' : (h.sceneOf (h.delegateTo (h.runAt depth)) arena code true).options.safeMode =
          true := hsafe
        rw [hsafe'] at hunsafe
        cases hunsafe

end Run

/-! ## 3. Runs inside runs -/

/-- **A language hands its text only to languages that keep it**, and those that get it by name do not
    fail. -/
structure HandsLossless (h : Highlighter) (arena : Arena) : Prop where
  lossless : ∀ id sub b, (arena.mode id).subLanguage = some sub → b ∈ h.handsTo sub →
    Lossless h b ∧ ∀ inner, GetsByName h b inner → TailsMerge inner
  named : ∀ id b inner, (arena.mode id).subLanguage = some (.single b) →
    h.language? b = some inner → NeverPanics inner ∧ TailsMerge inner

theorem Lossless.handsLossless (hl : Lossless h name)
    (hmerge : ∀ inner, GetsByName h name inner → TailsMerge inner)
    (harena : h.language? name = some arena) : HandsLossless h arena where
  lossless := fun _ _ _ hsub hb => ⟨hl.handsTo harena hsub hb,
    fun inner hinner => hmerge inner (hinner.handsTo harena hsub hb)⟩
  named := fun id b inner hsub hinner =>
    have hnamed : GetsByName h name inner := ⟨name, arena, id, b, .itself, harena, hsub, hinner⟩
    ⟨hl.handed inner hnamed, hmerge inner hnamed⟩

/-- A language that hands nothing on. -/
theorem handsLossless_of_all (hall : arena.modes.all (·.subLanguage.isNone) = true) :
    HandsLossless h arena where
  lossless := fun id _ _ hsub =>
    absurd (Option.isNone_iff_eq_none.mp (Arena.mode_all rfl hall id)) (by rw [hsub]; simp)
  named := fun id _ _ hsub =>
    absurd (Option.isNone_iff_eq_none.mp (Arena.mode_all rfl hall id)) (by rw [hsub]; simp)

/-- Nested runs that may not be nested any further answer with the text that they are handed. -/
theorem keeps_delegateTo_zero (arena : Arena) (code : String) (ignoreIllegals : Bool) :
    Keeps (h.sceneOf (h.delegateTo (h.runAt 0)) arena code ignoreIllegals) := by
  intro id sub text n _ hanswer
  rcases answers_delegateTo hanswer with ⟨_, _, _, _, _, _, hrun, _⟩ | ⟨_, hplain | hbest⟩
  · cases hrun
  · rw [hplain]
    exact String.append_empty ..
  · obtain ⟨_, _, _, _, hrun, _⟩ := hbest
    cases hrun

/-- **Nested runs answer with the text that they are handed** if those inside them do. -/
theorem keeps_delegateTo_succ {depth : Nat} (hhands : HandsLossless h arena)
    (hinside : ∀ {name : String} {arena : Arena}, Lossless h name →
      (∀ inner, GetsByName h name inner → TailsMerge inner) → h.language? name = some arena →
      ∀ (code : String) (ignoreIllegals : Bool),
        Keeps (h.sceneOf (h.delegateTo (h.runAt depth)) arena code ignoreIllegals))
    (code : String) (ignoreIllegals : Bool) :
    Keeps (h.sceneOf (h.delegateTo (h.runAt (depth + 1))) arena code ignoreIllegals) := by
  intro id sub text n hsub hanswer
  rcases answers_delegateTo hanswer with
    ⟨b, inner, continuation, o, rfl, hinner, hrun, rfl⟩ | ⟨_, hplain | hbest⟩
  · obtain ⟨hb, hmerge⟩ := hhands.lossless id _ b hsub (List.mem_singleton_self b)
    obtain ⟨hpanics, htails⟩ := hhands.named id b inner hsub hinner
    rw [runAt_succ hinner] at hrun
    obtain ⟨n, language, hc, _⟩ := hb.compiled b inner .itself hinner
    have hdone := completed_of_handed hc hpanics htails hrun
    exact ((kept_runArena hb hinner (hinside hb hmerge hinner text true)).2 o hrun).1 hdone
  · rw [hplain]
    exact String.append_empty ..
  · obtain ⟨b, hb, hauto, o, hrun, hworth, rfl⟩ := hbest
    obtain ⟨inner, hinner⟩ := language?_of_autoDetection hauto
    obtain ⟨hb, hmerge⟩ := hhands.lossless id sub b hsub hb
    rw [runAt_succ hinner] at hrun
    -- What was recovered is worth nothing, so it does not fit best.
    have hdone : o.ending = .completed := by
      obtain ⟨_, ⟨_, hending, _⟩ | ⟨_, _, _, _, _, _, hnothing⟩⟩ := runArena_ok hrun
      · exact hending
      · omega
    exact ((kept_runArena hb hinner (hinside hb hmerge hinner text false)).2 o hrun).1 hdone

/-- **Nested runs answer with the text that they are handed**, however deep they lie. -/
theorem keeps_delegateTo (depth : Nat) : ∀ {name : String} {arena : Arena}, Lossless h name →
    (∀ inner, GetsByName h name inner → TailsMerge inner) → h.language? name = some arena →
    ∀ (code : String) (ignoreIllegals : Bool),
      Keeps (h.sceneOf (h.delegateTo (h.runAt depth)) arena code ignoreIllegals) := by
  induction depth with
  | zero =>
    intro name arena _ _ _ code ignoreIllegals
    exact keeps_delegateTo_zero arena code ignoreIllegals
  | succ depth ih =>
    intro name arena hl hmerge harena code ignoreIllegals
    exact keeps_delegateTo_succ (hl.handsLossless hmerge harena) ih code ignoreIllegals

/-- The same of a language that only hands its text to such languages. -/
theorem HandsLossless.keeps (hhands : HandsLossless h arena) (depth : Nat) (code : String)
    (ignoreIllegals : Bool) :
    Keeps (h.sceneOf (h.delegateTo (h.runAt depth)) arena code ignoreIllegals) := by
  cases depth with
  | zero => exact keeps_delegateTo_zero arena code ignoreIllegals
  | succ depth => exact keeps_delegateTo_succ hhands (keeps_delegateTo depth) code ignoreIllegals

/-- A mode without hooks and without flags or labels that bear on its delimiters. -/
def isPlain (m : Arena.ArenaMode) : Bool :=
  !m.returnBegin && !m.returnEnd && m.beginScope.isNone && m.endScope.isNone && m.onBegin.isNone
    && m.onEnd.isNone

/-- A language is compiled without extensions, and all of its modes are plain. -/
structure PlainArena (arena : Arena) : Prop where
  compiled : ∃ (n : String) (language : Language),
    compileLanguage n language = .ok arena ∧ language.extensions = []
  plain : arena.modes.all isPlain = true

theorem isPlain_mode (hp : arena.modes.all isPlain = true) (id : Nat) :
    isPlain (arena.mode id) = true := Arena.mode_all rfl hp id

/-- **Languages of plain modes keep text.** -/
theorem lossless_of_plain (hall : AllRegistered h PlainArena) (name : String) :
    Lossless h name := by
  have hmode : ∀ {arena : Arena}, PlainArena arena → ∀ id,
      (arena.mode id).returnBegin = false ∧ (arena.mode id).returnEnd = false ∧
      (arena.mode id).beginScope = none ∧ (arena.mode id).endScope = none ∧
      (arena.mode id).onBegin = none ∧ (arena.mode id).onEnd = none := by
    intro arena hp id
    have hplain := isPlain_mode hp.plain id
    simp only [isPlain, Bool.and_eq_true, Bool.not_eq_true', Option.isNone_iff_eq_none] at hplain
    obtain ⟨⟨⟨⟨⟨h1, h2⟩, h3⟩, h4⟩, h5⟩, h6⟩ := hplain
    exact ⟨h1, h2, h3, h4, h5, h6⟩
  have hunlabelled : ∀ {arena : Arena}, PlainArena arena → Scan.Unlabelled arena := fun hp id =>
    ⟨(hmode hp id).2.2.1, (hmode hp id).2.2.2.1⟩
  refine ⟨fun a arena _ ha => (hall.language? ha).compiled, fun a arena _ ha => ?_,
    fun a arena _ ha => (hunlabelled (hall.language? ha)).tilesParts, fun inner hinner => ?_⟩
  · have hp := hall.language? ha
    obtain ⟨hstarts, hends, hwords⟩ := (hunlabelled hp).plainParts
    exact ⟨fun id hreturn => (by cases (hmode hp id).1.symm.trans hreturn),
      fun id hreturn => (by cases (hmode hp id).2.1.symm.trans hreturn), hstarts, hends, hwords⟩
  · obtain ⟨_, _, _, b, _, _, _, hb⟩ := hinner
    have hp := hall.language? hb
    intro id hook hhook
    rw [(hmode hp id).2.2.2.2.1, (hmode hp id).2.2.2.2.2] at hhook
    rcases hhook with hhook | hhook <;> cases hhook

/-! ## 5. Text lost to a tail of rules -/

/-- A language that hands the text between angle brackets to the language with a name. -/
def bracketLanguage (name : String) : Language where
  mode := {
    contains := some [.mode ⟨[("block", 0)], {
      beginPattern := some (.single "<")
      endPattern := some (.single ">")
      subLanguage := some (.single name) }⟩] }

/-- A language whose second rule reads a character by its octal number, of which merging makes
    another number: with the first rule before it one that can be read, and without it one that is
    too big. A dot before the word of the first rule turns it down. -/
def brittleLanguage : Language where
  mode := {
    contains := some [
      .mode ⟨[("word", 0)], { beginKeywords := some "((((((x))))))" }⟩,
      .mode ⟨[("number", 0)], { beginPattern := some (.single "\\399") }⟩] }

/-- A highlighter in which one language hands text to another by name. -/
def withBrackets (inner : Language) : Except Fault Highlighter := do
  (← (new {}).register "inner" (.constant inner)).register "outer"
    (.constant (bracketLanguage "inner"))

/-- Whether all modes of all languages are plain. -/
def allPlain (h : Highlighter) : Bool :=
  h.registered.entries.all fun e => e.2.arena.modes.all isPlain

theorem allRegistered_withBrackets {inner : Language} (hext : inner.extensions = [])
    (hh : withBrackets inner = .ok h) (hplain : allPlain h = true) :
    AllRegistered h PlainArena := by
  have hcompiled : AllRegistered h fun arena => ∃ (n : String) (language : Language),
      compileLanguage n language = .ok arena ∧ language.extensions = [] := by
    simp only [withBrackets, bind, Except.bind] at hh
    split at hh
    · cases hh
    · rename_i h1 hh1
      refine allRegistered_register ?_ (fun arena ha => ⟨_, _, ha, rfl⟩) hh
      exact allRegistered_register (allRegistered_new _ _) (fun arena ha => ⟨_, _, ha, hext⟩) hh1
  intro e he
  exact ⟨hcompiled e he, List.all_eq_true.mp hplain e he⟩

end Highlight.Highlighter
