import Highlight.Proofs.Arena.Trimmed
import Highlight.Proofs.Keyword.Rescored

/-!
# Modes with other scores

A mode can say what it is worth, and its keywords can. The same mode with other scores, in whichever
of its modes, is prepared alike and has the same delimiters.

* `RescoredBy`, `Rescored`, `RescoredLanguage` -- a mode, and a language, with other scores; `words`
  says what becomes of the words that a mode begins with;
* `Rescored.step`, `rescored_prepare` -- the steps of the preparation, and all of it;
* `SameTables`, `RescoredParts`, `rescored_compileParts` -- what a mode comes to by itself.
-/

namespace Highlight.Arena

open Highlight.Grammar

/-! ## 1. Written modes -/

/-- A mode with the scores, the keywords and the links of another one. -/
def scoredAs (m n : Mode) : Mode :=
  { linkedAs m n with relevance := n.relevance, keywords := n.keywords }

/-- Modes inside modes that are the same by their identities, and by what they are. -/
structure SameShared (P : Mode → Mode → Prop) (s s' : Shared Mode) : Prop where
  id : s'.id = s.id
  value : P s.value s'.value

/-- The same entry, with the same mode up to `P`. -/
inductive SameContained (P : Mode → Mode → Prop) : Contained Mode → Contained Mode → Prop
  | self : SameContained P .self .self
  | named (name : String) : SameContained P (.named name) (.named name)
  | mode {s s' : Shared Mode} : SameShared P s s' → SameContained P (.mode s) (.mode s')

/-- A mode, and the same one with other scores. `P` says the same of the modes inside them, and
    `words` of the words that they begin with. -/
structure RescoredBy (words : String → String → Prop) (P : Mode → Mode → Prop) (m m' : Mode) :
    Prop where
  same : m' = { scoredAs m m' with beginKeywords := m'.beginKeywords }
  keywords : Option.Rel Keyword.Rescored m.keywords m'.keywords
  begins : Option.Rel words m.beginKeywords m'.beginKeywords
  contains : Option.Rel (List.Forall₂ (SameContained P)) m.contains m'.contains
  variants : Option.Rel (List.Forall₂ P) m.variants m'.variants
  starts : Option.Rel (SameShared P) m.starts m'.starts

/-- **A written mode, and the same one with other scores**, here or in the modes inside them: the
    coarsest relation with that. -/
def Rescored (words : String → String → Prop) (m m' : Mode) : Prop :=
  ∃ P, (∀ m m', P m m' → RescoredBy words P m m') ∧ P m m'

/-- An extension of two languages makes modes that are the same but for scores of such. -/
def RescoredExtension (words : String → String → Prop) (e e' : Extension) : Prop :=
  ∀ m m' parent parent', Rescored words m m' → Option.Rel (Rescored words) parent parent' →
    Rescored words (e.apply m parent) (e'.apply m' parent')

/-- **A language, and the same one with other scores**, in any of its modes. -/
structure RescoredLanguage (words : String → String → Prop) (l l' : Language) : Prop where
  same : l' = { l with
    repository := l'.repository, extensions := l'.extensions, mode := l'.mode }
  repository : ∀ name, Option.Rel (SameShared (Rescored words)) (l.repository.get? name)
    (l'.repository.get? name)
  extensions : List.Forall₂ (RescoredExtension words) l.extensions l'.extensions
  mode : Rescored words l.mode l'.mode

variable {words : String → String → Prop} {P Q : Mode → Mode → Prop} {l l' : Language}
  {m m' n n' v v' raw raw' : Mode} {parent parent' : Option Mode}

theorem SameShared.mono {s s' : Shared Mode} (h : SameShared P s s')
    (hPQ : ∀ m m', P m m' → Q m m') : SameShared Q s s' := ⟨h.id, hPQ _ _ h.value⟩

theorem SameContained.mono {c c' : Contained Mode} (h : SameContained P c c')
    (hPQ : ∀ m m', P m m' → Q m m') : SameContained Q c c' := by
  cases h with
  | self => exact .self
  | named name => exact .named name
  | mode hs => exact .mode (hs.mono hPQ)

theorem RescoredBy.mono (h : RescoredBy words P m m') (hPQ : ∀ m m', P m m' → Q m m') :
    RescoredBy words Q m m' where
  same := h.same
  keywords := h.keywords
  begins := h.begins
  contains := rel_mono h.contains fun _ _ hcs => hcs.imp fun _ _ hc => hc.mono hPQ
  variants := rel_mono h.variants fun _ _ hvs => hvs.imp hPQ
  starts := rel_mono h.starts fun _ _ hs => hs.mono hPQ

theorem Rescored.rescoredBy (h : Rescored words m m') :
    RescoredBy words (Rescored words) m m' := by
  obtain ⟨P, hP, hm⟩ := h
  exact (hP _ _ hm).mono fun _ _ hP' => ⟨P, hP, hP'⟩

theorem RescoredBy.rescored (h : RescoredBy words (Rescored words) m m') : Rescored words m m' :=
  ⟨RescoredBy words (Rescored words), fun _ _ hn => hn.mono fun _ _ => Rescored.rescoredBy, h⟩

/-! From here on modes begin with the same words. -/

theorem Rescored.eq (h : Rescored Eq m m') : m' = scoredAs m m' := by
  obtain ⟨hsame, _, hbegins, _⟩ := h.rescoredBy
  have hwords : m'.beginKeywords = m.beginKeywords := by
    generalize m.beginKeywords = b at hbegins ⊢
    generalize m'.beginKeywords = b' at hbegins ⊢
    cases hbegins with
    | none => rfl
    | some hb => rw [hb]
  rw [hwords] at hsame
  exact hsame

/-- Modes with the same scores and links as two that are the same but for scores, and the same in
    all else. -/
theorem Rescored.relinked (h : Rescored Eq m m') (hkeywords : n.keywords = m.keywords)
    (hcontains : n.contains = m.contains) (hvariants : n.variants = m.variants)
    (hstarts : n.starts = m.starts) : Rescored Eq n (scoredAs n m') := by
  have hby := h.rescoredBy
  refine RescoredBy.rescored ⟨rfl, ?_, ?_, ?_, ?_, ?_⟩
  · rw [hkeywords]
    exact hby.keywords
  · show Option.Rel Eq n.beginKeywords n.beginKeywords
    cases n.beginKeywords with
    | none => exact .none
    | some b => exact .some rfl
  · rw [hcontains]
    exact hby.contains
  · rw [hvariants]
    exact hby.variants
  · rw [hstarts]
    exact hby.starts

theorem scoredAs_self (m : Mode) : scoredAs m m = m := by
  cases m
  rfl

/-- **A step that leaves the scores and the links of a mode alone keeps modes the same but for
    scores.** -/
theorem Rescored.step {f : Mode → Except Cause Mode} (h : Rescored Eq m m')
    (hscores : ∀ m n, f (scoredAs m n) = (f m).map (scoredAs · n)) (hn : f m = .ok n)
    (hn' : f m' = .ok n') : Rescored Eq n n' := by
  have hself : n = scoredAs n m := by
    have heq := hscores m m
    rw [scoredAs_self, hn] at heq
    exact Except.ok.inj heq
  have hkeywords := congrArg Mode.keywords hself
  have hcontains := congrArg Mode.contains hself
  have hvariants := congrArg Mode.variants hself
  have hstarts := congrArg Mode.starts hself
  rw [h.eq, hscores, hn] at hn'
  rw [← Except.ok.inj hn']
  exact h.relinked hkeywords hcontains hvariants hstarts

/-! ## 2. Preparation -/

theorem spelled_scoredAs (m n : Mode) :
    spelled (scoredAs m n) = (spelled m).map (scoredAs · n) := by
  have hscope : spellScope (scoredAs m n) = scoredAs (spellScope m) n := by
    unfold spellScope
    simp only [scoredAs, linkedAs]
    split <;> rfl
  unfold spelled
  rw [hscope]
  generalize spellScope m = m1
  unfold spellMatch
  cases hpattern : m1.matchPattern with
  | none => simp only [scoredAs, linkedAs, hpattern, Except.map]
  | some pattern =>
    simp only [scoredAs, linkedAs, hpattern]
    split <;> rfl

theorem moveScope_scoredAs (m n : Mode) : moveScope (scoredAs m n) = scoredAs (moveScope m) n := by
  unfold moveScope
  simp only [scoredAs, linkedAs]
  split <;> rfl

/-- **Lead-ins to modes that are the same but for scores are the same but for scores.** -/
theorem Rescored.leadIn (h : Rescored Eq m m') (place : Identity) (before : String) :
    Rescored Eq (leadIn place m before) (leadIn place m' before) := by
  have hinner : Rescored Eq { m with endsParent := some true }
      { m' with endsParent := some true } := by
    have hrelinked := h.relinked (n := { m with endsParent := some true }) rfl rfl rfl rfl
    rw [h.eq]
    exact hrelinked
  have hcontents : Option.Rel (List.Forall₂ (SameContained (Rescored Eq)))
      (some [.mode ⟨("led", 0) :: place, { m with endsParent := some true }⟩])
      (some [.mode ⟨("led", 0) :: place, { m' with endsParent := some true }⟩]) :=
    .some (.cons (.mode ⟨rfl, hinner⟩) .nil)
  refine RescoredBy.rescored ⟨?_, h.rescoredBy.keywords, .none, .none, .none, .some ⟨rfl, ?_⟩⟩
  · rw [h.eq]
    rfl
  · exact RescoredBy.rescored ⟨rfl, .none, .none, hcontents, .none, .none⟩

theorem rescored_spellBefore {place : Identity} (h : Rescored Eq m m')
    (hn : spellBefore place m = .ok n) (hn' : spellBefore place m' = .ok n') :
    Rescored Eq n n' := by
  have hbefore : m'.beforeMatch = m.beforeMatch := by
    rw [h.eq]
    rfl
  unfold spellBefore at hn hn'
  rw [hbefore] at hn'
  cases hm : m.beforeMatch with
  | none =>
    simp only [hm] at hn hn'
    cases hn
    cases hn'
    exact h
  | some before =>
    simp only [hm] at hn hn'
    split at hn
    · cases hn
    · split at hn'
      · cases hn'
      · cases hn
        cases hn'
        refine Rescored.leadIn ?_ place before
        have hrelinked := h.relinked (n := { m with beforeMatch := none }) rfl rfl rfl rfl
        rw [h.eq]
        exact hrelinked

/-- The parts of a delimiter are joined. -/
def joined (m : Mode) : Except Cause (Mode × Option ScopeEmit × Option ScopeEmit) := do
  let (beginPattern, beginScope) ← joinDelimiter m.beginPattern m.beginScope "beginScope"
    [("skip", m.skip), ("excludeBegin", m.excludeBegin), ("returnBegin", m.returnBegin)]
  let (endPattern, endScope) ← joinDelimiter m.endPattern m.endScope "endScope"
    [("skip", m.skip), ("excludeEnd", m.excludeEnd), ("returnEnd", m.returnEnd)]
  return ({ m with beginPattern, endPattern, beginScope := none, endScope := none },
    beginScope, endScope)

theorem prepare_joined (extensions : List Extension) (place : Identity) (parent : Option Mode)
    (raw : Mode) : prepare extensions place parent raw = (do
      let m ← spelled raw
      let m ← spellBefore place m
      let (m, beginScope, endScope) ← joined (moveScope m)
      let rest := spellRest parent (extend extensions parent m)
      return ⟨rest.1, beginScope, endScope, rest.2⟩) := by
  simp only [prepare, joined, spelled, bind_assoc, pure_bind]

theorem joined_scoredAs (m n : Mode) :
    joined (scoredAs m n) = (joined m).map fun j => (scoredAs j.1 n, j.2) := by
  unfold joined
  simp only [scoredAs, linkedAs]
  simp only [bind, Except.bind, pure, Except.pure]
  split
  · rfl
  · split
    · rfl
    · rfl

/-- Extensions that belong together keep modes the same but for scores. -/
theorem rescored_extend {es es' : List Extension}
    (hes : List.Forall₂ (RescoredExtension words) es es')
    (hparent : Option.Rel (Rescored words) parent parent') (h : Rescored words m m') :
    Rescored words (extend es parent m) (extend es' parent' m') := by
  unfold extend
  induction hes generalizing m m' with
  | nil => exact h
  | cons he _ ih => exact ih (he _ _ _ _ h hparent)

/-- **The words that a mode begins with make the same pattern**, and keywords that are the same but
    for scores. -/
theorem rescored_spellKeywords (h : Rescored Eq m m') :
    Rescored Eq (spellKeywords m).1 (spellKeywords m').1 ∧
      (spellKeywords m').2 = (spellKeywords m).2 := by
  have hby := h.rescoredBy
  have hwords : m'.beginKeywords = m.beginKeywords := by
    rw [h.eq]
    rfl
  have hsame := h.eq
  unfold spellKeywords
  rw [hwords]
  cases hm : m.beginKeywords with
  | none => exact ⟨h, rfl⟩
  | some words =>
    refine ⟨RescoredBy.rescored ⟨?_, ?_, .none, hby.contains, hby.variants, hby.starts⟩, rfl⟩
    · rw [hsame]
      rfl
    · show Option.Rel _ (m.keywords <|> _) (m'.keywords <|> _)
      have hkeywords := hby.keywords
      generalize m.keywords = k at hkeywords ⊢
      generalize m'.keywords = k' at hkeywords ⊢
      cases hkeywords with
      | none => exact .some (.refl _)
      | some hk => exact .some hk

theorem rescored_spellIllegal (h : Rescored Eq m m') :
    Rescored Eq (spellIllegal m) (spellIllegal m') := by
  refine h.step (f := fun m => .ok (spellIllegal m)) (fun m n => ?_) rfl rfl
  unfold spellIllegal
  simp only [scoredAs, linkedAs]
  split <;> rfl

theorem rescored_spellRest (hparent : parent'.isSome = parent.isSome) (h : Rescored Eq m m') :
    Rescored Eq (spellRest parent m).1 (spellRest parent' m').1 ∧
      (spellRest parent' m').2 = (spellRest parent m).2 := by
  have hworth : ∀ {m m' : Mode}, Rescored Eq m m' → ∀ r r', Rescored Eq
      { spellIllegal m with relevance := r } { spellIllegal m' with relevance := r' } := by
    intro m m' h r r'
    have hillegal := rescored_spellIllegal h
    obtain ⟨_, hkeywords, hbegins, hcontains, hvariants, hstarts⟩ := hillegal.rescoredBy
    refine RescoredBy.rescored ⟨?_, hkeywords, hbegins, hcontains, hvariants, hstarts⟩
    rw [hillegal.eq]
    rfl
  unfold spellRest
  rw [hparent]
  cases parent.isSome with
  | false => exact ⟨hworth h _ _, rfl⟩
  | true =>
    obtain ⟨hspelled, hdot⟩ := rescored_spellKeywords h
    exact ⟨hworth hspelled _ _, hdot⟩

/-- The same but for scores. -/
structure RescoredPrepared (q q' : Prepared) : Prop where
  mode : Rescored Eq q.mode q'.mode
  beginScope : q'.beginScope = q.beginScope
  endScope : q'.endScope = q.endScope
  skipAfterDot : q'.skipAfterDot = q.skipAfterDot

/-- **Modes that are the same but for scores are prepared alike.** -/
theorem rescored_prepare (hl : RescoredLanguage Eq l l') {place : Identity} {q q' : Prepared}
    (hparent : Option.Rel (Rescored Eq) parent parent') (h : Rescored Eq raw raw')
    (hq : prepare l.extensions place parent raw = .ok q)
    (hq' : prepare l'.extensions place parent' raw' = .ok q') : RescoredPrepared q q' := by
  rw [prepare_joined] at hq hq'
  obtain ⟨m1, hm1, hq⟩ := exists_of_bind hq
  obtain ⟨m1', hm1', hq'⟩ := exists_of_bind hq'
  have h1 := h.step spelled_scoredAs hm1 hm1'
  obtain ⟨m2, hm2, hq⟩ := exists_of_bind hq
  obtain ⟨m2', hm2', hq'⟩ := exists_of_bind hq'
  have h2 := rescored_spellBefore h1 hm2 hm2'
  have h3 : Rescored Eq (moveScope m2) (moveScope m2') :=
    h2.step (f := fun m => .ok (moveScope m))
      (fun m n => congrArg Except.ok (moveScope_scoredAs m n)) rfl rfl
  obtain ⟨j, hj, hq⟩ := exists_of_bind hq
  obtain ⟨j', hj', hq'⟩ := exists_of_bind hq'
  have h4 : Rescored Eq j.1 j'.1 := by
    refine h3.step (f := fun m => (joined m).map (·.1)) (fun m n => ?_) (by rw [hj]; rfl)
      (by rw [hj']; rfl)
    rw [joined_scoredAs]
    cases joined m <;> rfl
  have hscopes : j'.2 = j.2 := by
    rw [h3.eq, joined_scoredAs, hj] at hj'
    cases hj'
    rfl
  have h5 := rescored_extend hl.extensions hparent h4
  have hsome : parent'.isSome = parent.isSome := by cases hparent <;> rfl
  obtain ⟨h6, hdot⟩ := rescored_spellRest hsome h5
  cases hq
  cases hq'
  exact ⟨h6, congrArg (·.1) hscopes, congrArg (·.2) hscopes, hdot⟩

/-! ## 3. What a mode comes to by itself -/

/-- Compiled keywords are the same but for scores. -/
structure SameTables (k k' : ModeKeywords) : Prop where
  pattern : k'.pattern = k.pattern
  regex : k'.regex = k.regex
  caseInsensitive : k'.table.caseInsensitive = k.table.caseInsensitive
  finds : ∀ word, Option.Rel (fun e e' => e'.scope = e.scope) (k.table.find? word)
    (k'.table.find? word)

theorem rescored_compileKeywords {folded : Bool} {k k' : Keywords} {c c' : ModeKeywords}
    (h : Keyword.Rescored k k') (hc : compileKeywords folded k = .ok c)
    (hc' : compileKeywords folded k' = .ok c') : SameTables c c' := by
  obtain ⟨table, htable, hc⟩ := exists_of_bind hc
  obtain ⟨table', htable', hc'⟩ := exists_of_bind hc'
  obtain ⟨regex, hregex, hc⟩ := exists_of_bind hc
  obtain ⟨regex', hregex', hc'⟩ := exists_of_bind hc'
  rw [h.pattern] at hregex' hc'
  cases hregex.symm.trans hregex'
  cases hc
  cases hc'
  obtain ⟨hfolds, hfinds⟩ := Keyword.rescored_compile h htable htable'
  exact ⟨rfl, rfl, hfolds, hfinds⟩

/-- What two modes come to by themselves is the same but for scores. -/
structure RescoredParts (p p' : Parts) : Prop where
  prepared : RescoredPrepared p.prepared p'.prepared
  delimiters : p'.delimiters = p.delimiters
  illegal : p'.illegal = p.illegal
  keywords : Option.Rel SameTables p.keywords p'.keywords

/-- What is around two modes is the same but for scores. -/
structure RescoredParent (q q' : Parent) : Prop where
  id : q'.id = q.id
  mode : Rescored Eq q.mode q'.mode
  terminator : q'.terminator = q.terminator

theorem RescoredLanguage.caseInsensitive (hl : RescoredLanguage words l l') :
    l'.caseInsensitive = l.caseInsensitive := by
  rw [hl.same]

theorem compileDelimiters_rescored {folded : Bool} {parent parent' : Option Parent}
    (hparent : Option.Rel RescoredParent parent parent') (h : Rescored Eq m m') :
    compileDelimiters folded m' parent' = compileDelimiters folded m parent := by
  rw [h.eq]
  cases hparent with
  | none => rfl
  | some hp =>
    simp only [compileDelimiters, hp.terminator]
    rfl

/-- **Modes that are the same but for scores come to the same by themselves**, but for scores. -/
theorem rescored_compileParts {parent parent' : Option Parent} {key : Option Key} {p p' : Parts}
    (hl : RescoredLanguage Eq l l') (hparent : Option.Rel RescoredParent parent parent')
    (h : Rescored Eq raw raw') (hp : compileParts l parent key raw = .ok p)
    (hp' : compileParts l' parent' key raw' = .ok p') : RescoredParts p p' := by
  have hmodes : Option.Rel (Rescored Eq) (parent.map (·.mode)) (parent'.map (·.mode)) := by
    cases hparent with
    | none => exact .none
    | some hq => exact .some hq.mode
  have hprepared : RescoredPrepared p.prepared p'.prepared :=
    rescored_prepare hl hmodes h (prepare_of_compileParts hp) (prepare_of_compileParts hp')
  obtain ⟨_, hdelimiters, hillegal, _, hkeywords⟩ := madeParts hp
  obtain ⟨_, hdelimiters', hillegal', _, hkeywords'⟩ := madeParts hp'
  rw [hl.caseInsensitive] at hdelimiters' hkeywords'
  rw [compileDelimiters_rescored hparent hprepared.mode] at hdelimiters'
  refine ⟨hprepared, Except.ok.inj (hdelimiters'.symm.trans hdelimiters), ?_, ?_⟩
  · rw [hillegal', hillegal, hprepared.mode.eq]
    rfl
  · have hwords := hprepared.mode.rescoredBy.keywords
    have hmade := rel_of_mapM hkeywords
    have hmade' := rel_of_mapM hkeywords'
    generalize p.prepared.mode.keywords = k at hwords hmade
    generalize p'.prepared.mode.keywords = k' at hwords hmade'
    generalize p.keywords = c at hmade ⊢
    generalize p'.keywords = c' at hmade' ⊢
    cases hwords with
    | none =>
      cases hmade
      cases hmade'
      exact .none
    | some hk =>
      cases hmade with
      | some hc =>
        cases hmade' with
        | some hc' => exact .some (rescored_compileKeywords hk hc hc')

end Highlight.Arena
