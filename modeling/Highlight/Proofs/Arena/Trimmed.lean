import Highlight.Proofs.Arena.Delimiters
import Highlight.Proofs.Arena.Hits
import Highlight.Proofs.Arena.Links
import Highlight.Proofs.Arena.Memo
import Highlight.Proofs.Lists

/-!
# Modes without some of what they contain

A mode can contain modes that never begin, since a hook turns down every match of their beginnings.
The same mode without them, in whichever of its modes they stand, comes to the same by itself, and
contains the same but for them.

* `RejectsAll`, `NeverBegins`, `Idle` -- modes that never begin;
* `MayGo` -- what can be left out;
* `Trimmed`, `TrimmedLanguage` -- a mode, and a language, with such entries left out;
* `trimmed_bodies`, `thinned_entriesOf` -- variants, and what a mode contains in order;
* `trimmed_prepare`, `trimmed_compileParts` -- what a mode comes to by itself.
-/

namespace Highlight.Arena

open Highlight.Grammar

/-! ## 1. Written modes -/

/-- The hook turns every match down, and does nothing else. -/
def RejectsAll (hook : Hook) : Prop :=
  ∀ view data, (hook.call view data).verdict = .ignore ∧ (hook.call view data).notes = []

/-- A mode with this hook at its beginning never begins. -/
def NeverBegins (hook : Option Hook) : Prop := ∃ h, hook = some h ∧ RejectsAll h

/-- **The modes that a written one stands for** inside another: itself, or its variants. -/
def bodies (m : Mode) : List Mode :=
  match m.variants with
  | none => [m]
  | some variants => variants.map ({ m with variants := none } : Mode).inherit

/-- A mode that never begins, with nothing to be read before it. -/
structure Idle (m : Mode) : Prop where
  before : m.beforeMatch = none
  never : NeverBegins m.onBegin

/-- A mode with the links of another one. -/
def linkedAs (m n : Mode) : Mode :=
  { m with contains := n.contains, variants := n.variants, starts := n.starts }

/-- The mode that an entry is, or that it names. -/
def shared? (repository : Dictionary String (Shared Mode)) : Contained Mode → Option (Shared Mode)
  | .self => none
  | .named name => repository.get? name
  | .mode s => some s

/-- **What can be left out of the modes that a mode contains**: those that never begin. A mode that
    is laid over another has the hook of that one, `under`, if it has none. -/
def MayGo (l : Language) (under : Option Hook) (m : Mode) : Contained Mode → Prop
  | .self => NeverBegins (m.onBegin <|> under) ∧ ∀ b ∈ bodies m, NeverBegins b.onBegin
  | c => ∀ s, shared? l.repository c = some s → ∀ b ∈ bodies s.value, Idle b

/-- The same entry, up to what is left out of the mode that it is. -/
inductive SameItem (P : Mode → Mode → Prop) : Contained Mode → Contained Mode → Prop
  | self : SameItem P .self .self
  | named (name : String) : SameItem P (.named name) (.named name)
  | mode {s s' : Shared Mode} : P s.value s'.value → SameItem P (.mode s) (.mode s')

theorem SameItem.mono {P Q : Mode → Mode → Prop} {c c' : Contained Mode} (h : SameItem P c c')
    (hPQ : ∀ m m', P m m' → Q m m') : SameItem Q c c' := by
  cases h with
  | self => exact .self
  | named name => exact .named name
  | mode hs => exact .mode (hPQ _ _ hs)

/-- A mode, and the same one with some entries left out that never begin. `P` says what is left out
    of the modes inside them. -/
structure TrimmedBy (l : Language) (P : Option Hook → Mode → Mode → Prop) (under : Option Hook)
    (m m' : Mode) : Prop where
  same : m' = linkedAs m m'
  contains : Option.Rel (Thinned (SameItem (P none)) (MayGo l under m)) m.contains m'.contains
  variants : Option.Rel (List.Forall₂ (P m.onBegin)) m.variants m'.variants
  starts : Option.Rel (fun s s' => P none s.value s'.value) m.starts m'.starts

/-- **A written mode, and the same one with some entries left out that never begin**, here or in the
    modes inside them: the coarsest relation with that. -/
def Trimmed (l : Language) (under : Option Hook) (m m' : Mode) : Prop :=
  ∃ P, (∀ under m m', P under m m' → TrimmedBy l P under m m') ∧ P under m m'

variable {l l' : Language} {under : Option Hook} {m m' n n' v v' raw raw' : Mode}
  {P Q : Option Hook → Mode → Mode → Prop}

theorem TrimmedBy.mono (h : TrimmedBy l P under m m')
    (hPQ : ∀ under m m', P under m m' → Q under m m') : TrimmedBy l Q under m m' where
  same := h.same
  contains := rel_mono h.contains fun _ _ hcs =>
    hcs.mono (fun _ _ hc => hc.mono (hPQ none)) fun _ => id
  variants := rel_mono h.variants fun _ _ hvs => hvs.imp (hPQ _)
  starts := rel_mono h.starts fun _ _ => hPQ _ _ _

theorem Trimmed.trimmedBy (h : Trimmed l under m m') : TrimmedBy l (Trimmed l) under m m' := by
  obtain ⟨P, hP, hm⟩ := h
  exact (hP _ _ _ hm).mono fun _ _ _ hP' => ⟨P, hP, hP'⟩

theorem TrimmedBy.trimmed (h : TrimmedBy l (Trimmed l) under m m') : Trimmed l under m m' :=
  ⟨TrimmedBy l (Trimmed l), fun _ _ _ hn => hn.mono fun _ _ _ => Trimmed.trimmedBy, h⟩

/-- A mode is trimmed alike under other values of fields that say nothing of what it contains. -/
theorem Trimmed.relinked (h : Trimmed l under m m') (hcontains : n.contains = m.contains)
    (hvariants : n.variants = m.variants) (hstarts : n.starts = m.starts)
    (hbegins : n.onBegin = m.onBegin) : Trimmed l under n (linkedAs n m') := by
  have hby := h.trimmedBy
  have hbodies : (∀ b ∈ bodies m, NeverBegins b.onBegin) →
      ∀ b ∈ bodies n, NeverBegins b.onBegin := by
    unfold bodies
    rw [hvariants]
    cases m.variants with
    | none => simp [hbegins]
    | some vs => simp [Mode.inherit, hbegins]
  refine TrimmedBy.trimmed ⟨rfl, ?_, ?_, ?_⟩
  · rw [hcontains]
    refine rel_mono hby.contains fun _ _ hcs => hcs.mono (fun _ _ => id) fun c hc => ?_
    cases c with
    | self => exact ⟨hbegins ▸ hc.1, hbodies hc.2⟩
    | named name => exact hc
    | mode s => exact hc
  · rw [hvariants, hbegins]
    exact hby.variants
  · rw [hstarts]
    exact hby.starts

/-! ## 2. Variants and entries -/

theorem mem_bodies (h : v ∈ m.variants.getD []) :
    ({ m with variants := none } : Mode).inherit v ∈ bodies m := by
  unfold bodies
  generalize m.variants = vs at h
  cases vs with
  | none => cases h
  | some vs => exact List.mem_map_of_mem h

/-- **A variant laid over a mode is trimmed as the two are.** -/
theorem Trimmed.inherit (h : Trimmed l none m m') (hv : Trimmed l m.onBegin v v')
    (hmem : v ∈ m.variants.getD []) (hnone : v.variants = none) :
    Trimmed l none (({ m with variants := none } : Mode).inherit v)
      (({ m' with variants := none } : Mode).inherit v') := by
  obtain ⟨hsame, hcontains, _, hstarts⟩ := h.trimmedBy
  obtain ⟨hsame', hcontains', hvariants', hstarts'⟩ := hv.trimmedBy
  have hnone' : v'.variants = none := by
    rw [hnone] at hvariants'
    generalize v'.variants = vs at hvariants'
    cases hvariants'
    rfl
  have hbodies : bodies (({ m with variants := none } : Mode).inherit v) =
      [({ m with variants := none } : Mode).inherit v] := by
    unfold bodies Mode.inherit
    simp [hnone]
  have hself : NeverBegins (({ m with variants := none } : Mode).inherit v).onBegin →
      MayGo l none (({ m with variants := none } : Mode).inherit v) .self :=
    fun hnever => ⟨by simpa using hnever, by simpa [hbodies] using hnever⟩
  refine TrimmedBy.trimmed ⟨?_, ?_, ?_, ?_⟩
  · rw [hsame, hsame']
    rfl
  · show Option.Rel _ (v.contains <|> m.contains) (v'.contains <|> m'.contains)
    generalize v.contains = cs at hcontains' ⊢
    generalize v'.contains = cs' at hcontains' ⊢
    cases hcontains' with
    | none =>
      refine rel_mono hcontains fun _ _ hcs => hcs.mono (fun _ _ => id) fun c hc => ?_
      cases c with
      | self => exact hself (hc.2 _ (mem_bodies hmem))
      | named name => exact hc
      | mode s => exact hc
    | some hcs =>
      refine .some (hcs.mono (fun _ _ => id) fun c hc => ?_)
      cases c with
      | self => exact hself hc.1
      | named name => exact hc
      | mode s => exact hc
  · unfold Mode.inherit
    rw [hnone, hnone']
    exact .none
  · show Option.Rel _ (v.starts <|> m.starts) (v'.starts <|> m'.starts)
    generalize v.starts = s at hstarts' ⊢
    generalize v'.starts = s' at hstarts' ⊢
    cases hstarts' with
    | none => exact hstarts
    | some hs => exact .some hs

/-- Variants that are laid over a mode have none themselves, and are what the mode stands for. -/
theorem expandVariants_eq_ok {s : Shared Mode} {vs : List Mode} {es : List (Shared Mode)}
    (h : expandVariants s vs = .ok es) :
    es.map (·.value) = vs.map ({ s.value with variants := none } : Mode).inherit ∧
      ∀ v ∈ vs, v.variants = none := by
  have hall : List.Forall₂ (fun (x : Mode × Nat) (e : Shared Mode) =>
      x.1.variants = none ∧ e.value = ({ s.value with variants := none } : Mode).inherit x.1)
      vs.zipIdx es := by
    refine (forall₂_of_mapM h).imp fun (v, i) e he => ?_
    simp only at he
    split at he
    · cases he
    · rename_i hv
      cases he
      exact ⟨by simpa using hv, rfl⟩
  have hvalues : ∀ {xs : List (Mode × Nat)} {es : List (Shared Mode)},
      List.Forall₂ (fun (x : Mode × Nat) (e : Shared Mode) => x.1.variants = none ∧
        e.value = ({ s.value with variants := none } : Mode).inherit x.1) xs es →
      es.map (·.value) = (xs.map (·.1)).map ({ s.value with variants := none } : Mode).inherit ∧
        ∀ v ∈ xs.map (·.1), v.variants = none := by
    intro xs es hxs
    induction hxs with
    | nil => exact ⟨rfl, fun v hv => by cases hv⟩
    | cons hx _ ih =>
      refine ⟨by rw [List.map_cons, List.map_cons, List.map_cons, hx.2, ih.1], fun v hv => ?_⟩
      rcases List.mem_cons.mp hv with rfl | hv
      · exact hx.1
      · exact ih.2 v hv
  simpa using hvalues hall

theorem expanded_eq_ok {s : Shared Mode} {es : List (Shared Mode)} (h : expanded s = .ok es) :
    es.map (·.value) = bodies s.value ∧ ∀ v ∈ s.value.variants.getD [], v.variants = none := by
  unfold expanded at h
  unfold bodies
  cases hvs : s.value.variants with
  | none =>
    rw [hvs] at h
    cases h
    exact ⟨rfl, fun v hv => by cases hv⟩
  | some vs =>
    rw [hvs] at h
    exact expandVariants_eq_ok h

/-- **What a mode stands for is trimmed as the mode is.** -/
theorem trimmed_bodies (h : Trimmed l none m m')
    (hnone : ∀ v ∈ m.variants.getD [], v.variants = none) :
    List.Forall₂ (Trimmed l none) (bodies m) (bodies m') := by
  have hover : ∀ {vs vs' : List Mode}, (∀ v ∈ vs, v ∈ m.variants.getD []) →
      List.Forall₂ (Trimmed l m.onBegin) vs vs' →
      List.Forall₂ (Trimmed l none) (vs.map ({ m with variants := none } : Mode).inherit)
        (vs'.map ({ m' with variants := none } : Mode).inherit) := by
    intro vs vs' hmem hall
    induction hall with
    | nil => exact .nil
    | @cons v v' vs vs' hv _ ih =>
      have hfirst := hmem v List.mem_cons_self
      exact .cons (h.inherit hv hfirst (hnone v hfirst))
        (ih fun u hu => hmem u (List.mem_cons_of_mem v hu))
  have hvariants := h.trimmedBy.variants
  unfold bodies
  cases hvs : m.variants with
  | none =>
    rw [hvs] at hvariants
    generalize m'.variants = vs' at hvariants ⊢
    cases hvariants
    exact .cons h .nil
  | some vs =>
    rw [hvs] at hvariants
    generalize m'.variants = vs' at hvariants ⊢
    cases hvariants with
    | some hall => exact hover (fun v hv => by rwa [hvs]) hall

/-- **A language, and the same one with some entries left out that never begin**, in any of its
    modes. -/
structure TrimmedLanguage (l l' : Language) : Prop where
  same : l' = { l with repository := l'.repository, mode := l'.mode }
  repository : ∀ name, Option.Rel (fun s s' => Trimmed l none s.value s'.value)
    (l.repository.get? name) (l'.repository.get? name)
  mode : Trimmed l none l.mode l'.mode

/-- The same mode by an entry, up to what is left out of it; or both times the mode itself. -/
def SameEntry (l : Language) : Option (Shared Mode) → Option (Shared Mode) → Prop :=
  Option.Rel fun s s' => Trimmed l none s.value s'.value

/-- An entry of `m` that never begins. -/
def Gone (m : Mode) : Option (Shared Mode) → Prop
  | none => NeverBegins m.onBegin
  | some s => Idle s.value

variable {c c' : Contained Mode} {cs cs' : List (Contained Mode)}
  {es es' : List (Option (Shared Mode))}

theorem same_expanded {s s' : Shared Mode} {ms ms' : List (Shared Mode)}
    (hs : Trimmed l none s.value s'.value) (h : expanded s = .ok ms) (h' : expanded s' = .ok ms') :
    List.Forall₂ (SameEntry l) (ms.map some) (ms'.map some) := by
  obtain ⟨hvalues, hnone⟩ := expanded_eq_ok h
  have hbodies := trimmed_bodies hs hnone
  rw [← hvalues, ← (expanded_eq_ok h').1, List.forall₂_map_left_iff, List.forall₂_map_right_iff]
    at hbodies
  rw [List.forall₂_map_left_iff, List.forall₂_map_right_iff]
  exact hbodies.imp fun _ _ he => .some he

theorem entryOf_eq_ok {repository : Dictionary String (Shared Mode)}
    (h : entryOf repository c = .ok es) :
    (c = .self ∧ es = [none]) ∨
      ∃ s ms, shared? repository c = some s ∧ expanded s = .ok ms ∧ es = ms.map some := by
  have hinner : ∀ s, (expanded s).map (·.map some) = .ok es →
      ∃ ms, expanded s = .ok ms ∧ es = ms.map some := by
    intro s hs
    cases hms : expanded s with
    | error e =>
      rw [hms] at hs
      cases hs
    | ok ms =>
      rw [hms] at hs
      cases hs
      exact ⟨ms, rfl, rfl⟩
  cases c with
  | self =>
    cases h
    exact .inl ⟨rfl, rfl⟩
  | named name =>
    simp only [entryOf] at h
    split at h
    · cases h
    · rename_i s hs
      obtain ⟨ms, hms, hes⟩ := hinner s h
      exact .inr ⟨s, ms, hs, hms, hes⟩
  | mode s =>
    obtain ⟨ms, hms, hes⟩ := hinner s h
    exact .inr ⟨s, ms, rfl, hms, hes⟩

/-- Entries that are kept come to the same modes, up to what is left out of these. -/
theorem same_entryOf (hl : TrimmedLanguage l l') (hc : SameItem (Trimmed l none) c c')
    (h : entryOf l.repository c = .ok es) (h' : entryOf l'.repository c' = .ok es') :
    List.Forall₂ (SameEntry l) es es' := by
  have hshared : Option.Rel (fun s s' => Trimmed l none s.value s'.value)
      (shared? l.repository c) (shared? l'.repository c') := by
    cases hc with
    | self => exact .none
    | named name => exact hl.repository name
    | mode hs => exact .some hs
  have hself : c = .self ↔ c' = .self := by
    cases hc <;> simp
  rcases entryOf_eq_ok h with ⟨hc, rfl⟩ | ⟨s, ms, hs, hms, rfl⟩
  · rcases entryOf_eq_ok h' with ⟨_, rfl⟩ | ⟨s', _, hs', _, _⟩
    · exact .cons .none .nil
    · rw [hself.mp hc] at hs'
      cases hs'
  · rcases entryOf_eq_ok h' with ⟨hc', _⟩ | ⟨s', ms', hs', hms', rfl⟩
    · rw [hself.mpr hc'] at hs
      cases hs
    · rw [hs, hs'] at hshared
      cases hshared with
      | some hshared => exact same_expanded hshared hms hms'

/-- An entry that can be left out comes to modes that never begin. -/
theorem gone_entryOf (hc : MayGo l none m c) (h : entryOf l.repository c = .ok es) :
    ∀ e ∈ es, Gone m e := by
  intro e he
  rcases entryOf_eq_ok h with ⟨rfl, rfl⟩ | ⟨s, ms, hs, hms, rfl⟩
  · rw [List.mem_singleton.mp he]
    show NeverBegins m.onBegin
    simpa using hc.1
  · obtain ⟨s', hs', rfl⟩ := List.mem_map.mp he
    have hidle : ∀ b ∈ bodies s.value, Idle b := by
      cases c with
      | self => cases hs
      | named name => exact hc s hs
      | mode _ => exact hc s hs
    refine hidle s'.value ?_
    rw [← (expanded_eq_ok hms).1]
    exact List.mem_map_of_mem hs'

theorem entriesOf_cons {repository : Dictionary String (Shared Mode)}
    (h : entriesOf repository (c :: cs) = .ok es) : ∃ es1 es2, entryOf repository c = .ok es1 ∧
      entriesOf repository cs = .ok es2 ∧ es = es1 ++ es2 := by
  simp only [entriesOf, bind, Except.bind, pure, Except.pure] at h
  split at h
  · cases h
  · rename_i es1 hes1
    split at h
    · cases h
    · rename_i es2 hes2
      cases h
      exact ⟨es1, es2, hes1, hes2, rfl⟩

/-- **Of what a mode contains, what never begins is missing, and nothing else.** -/
theorem thinned_entriesOf (hl : TrimmedLanguage l l')
    (hcs : Thinned (SameItem (Trimmed l none)) (MayGo l none m) cs cs') :
    ∀ {es es'}, entriesOf l.repository cs = .ok es → entriesOf l'.repository cs' = .ok es' →
      Thinned (SameEntry l) (Gone m) es es' := by
  induction hcs with
  | nil =>
    intro es es' h h'
    cases h
    cases h'
    exact .nil
  | keep hc _ ih =>
    intro es es' h h'
    obtain ⟨es1, es2, h1, h2, rfl⟩ := entriesOf_cons h
    obtain ⟨es1', es2', h1', h2', rfl⟩ := entriesOf_cons h'
    exact (Thinned.of_forall₂ (same_entryOf hl hc h1 h1')).append (ih h2 h2')
  | leave hc _ ih =>
    intro es es' h h'
    obtain ⟨es1, es2, h1, h2, rfl⟩ := entriesOf_cons h
    exact (Thinned.of_all (gone_entryOf hc h1)).append (ih h2 h')

/-! ## 3. Preparation -/

theorem linkedAs_self (m : Mode) : linkedAs m m = m := by
  cases m
  rfl

/-- **A step that leaves the links and the hook of a mode alone keeps it trimmed.** -/
theorem Trimmed.step {f : Mode → Except Cause Mode} (h : Trimmed l none m m')
    (hlinks : ∀ m n, f (linkedAs m n) = (f m).map (linkedAs · n))
    (hbegins : ∀ m n, f m = .ok n → n.onBegin = m.onBegin) (hn : f m = .ok n)
    (hn' : f m' = .ok n') : Trimmed l none n n' := by
  have hself : n = linkedAs n m := by
    have heq := hlinks m m
    rw [linkedAs_self, hn] at heq
    exact Except.ok.inj heq
  have hcontains := congrArg Mode.contains hself
  have hvariants := congrArg Mode.variants hself
  have hstarts := congrArg Mode.starts hself
  rw [h.trimmedBy.same, hlinks, hn] at hn'
  rw [← Except.ok.inj hn']
  exact h.relinked hcontains hvariants hstarts (hbegins m n hn)

theorem spelled_linkedAs (m n : Mode) :
    spelled (linkedAs m n) = (spelled m).map (linkedAs · n) := by
  have hscope : spellScope (linkedAs m n) = linkedAs (spellScope m) n := by
    unfold spellScope
    simp only [linkedAs]
    split <;> rfl
  unfold spelled
  rw [hscope]
  generalize spellScope m = m1
  unfold spellMatch
  cases hpattern : m1.matchPattern with
  | none => simp only [linkedAs, hpattern, Except.map]
  | some pattern =>
    simp only [linkedAs, hpattern]
    split <;> rfl

theorem onBegin_of_spelled (h : spelled m = .ok n) : n.onBegin = m.onBegin := by
  have hscope : (spellScope m).onBegin = m.onBegin := by
    unfold spellScope
    split <;> rfl
  unfold spelled spellMatch at h
  split at h
  · split at h
    · cases h
    · cases h
      exact hscope
  · cases h
    exact hscope

theorem moveScope_linkedAs (m n : Mode) : moveScope (linkedAs m n) = linkedAs (moveScope m) n := by
  unfold moveScope
  simp only [linkedAs]
  split <;> rfl

theorem onBegin_moveScope (m : Mode) : (moveScope m).onBegin = m.onBegin := by
  unfold moveScope
  split <;> rfl

/-- **A lead-in to a mode that is trimmed is trimmed.** -/
theorem Trimmed.leadIn (h : Trimmed l none m m') (place place' : Identity) (before : String) :
    Trimmed l none (leadIn place m before) (leadIn place' m' before) := by
  have hinner : Trimmed l none { m with endsParent := some true }
      { m' with endsParent := some true } := by
    have hrelinked := h.relinked (n := { m with endsParent := some true }) rfl rfl rfl rfl
    rw [h.trimmedBy.same]
    exact hrelinked
  refine TrimmedBy.trimmed ⟨?_, .none, .none, .some ?_⟩
  · rw [h.trimmedBy.same]
    rfl
  · exact TrimmedBy.trimmed ⟨rfl, .some (.keep (.mode hinner) .nil), .none, .none⟩

theorem trimmed_spellBefore {place place' : Identity} (h : Trimmed l none m m')
    (hn : spellBefore place m = .ok n) (hn' : spellBefore place' m' = .ok n') :
    Trimmed l none n n' := by
  have hbefore : m'.beforeMatch = m.beforeMatch := by
    rw [h.trimmedBy.same]
    rfl
  unfold spellBefore at hn hn'
  rw [hbefore] at hn'
  cases hm : m.beforeMatch with
  | none =>
    simp only [hm] at hn hn'
    cases hn
    cases hn'
    exact h
  | some before =>
    simp only [hm] at hn hn'
    split at hn
    · cases hn
    · split at hn'
      · cases hn'
      · cases hn
        cases hn'
        refine Trimmed.leadIn ?_ place place' before
        have hrelinked := h.relinked (n := { m with beforeMatch := none }) rfl rfl rfl rfl
        rw [h.trimmedBy.same]
        exact hrelinked

/-- The last part of the preparation, where delimiters are joined and the last shorthands written
    out. -/
def settled (parent : Option Mode) (m : Mode) : Except Cause Prepared := do
  let (beginPattern, beginScope) ← joinDelimiter m.beginPattern m.beginScope "beginScope"
    [("skip", m.skip), ("excludeBegin", m.excludeBegin), ("returnBegin", m.returnBegin)]
  let (endPattern, endScope) ← joinDelimiter m.endPattern m.endScope "endScope"
    [("skip", m.skip), ("excludeEnd", m.excludeEnd), ("returnEnd", m.returnEnd)]
  let rest := spellRest parent
    { m with beginPattern, endPattern, beginScope := none, endScope := none }
  return ⟨rest.1, beginScope, endScope, rest.2⟩

theorem prepare_eq (place : Identity) (parent : Option Mode) (raw : Mode) :
    prepare [] place parent raw = (do
      let m ← spelled raw
      let m ← spellBefore place m
      settled parent (moveScope m)) := rfl

theorem spellRest_linkedAs (parent : Option Mode) (m n : Mode) :
    spellRest parent (linkedAs m n) =
      (linkedAs (spellRest parent m).1 n, (spellRest parent m).2) := by
  have hkeywords : spellKeywords (linkedAs m n) =
      (linkedAs (spellKeywords m).1 n, (spellKeywords m).2) := by
    unfold spellKeywords
    simp only [linkedAs]
    split <;> rfl
  have hillegal : ∀ m, spellIllegal (linkedAs m n) = linkedAs (spellIllegal m) n := by
    intro m
    unfold spellIllegal
    simp only [linkedAs]
    split <;> rfl
  unfold spellRest
  rw [hkeywords]
  cases parent with
  | none =>
    show (({ spellIllegal (linkedAs m n) with relevance := _ } : Mode), _) = _
    rw [hillegal]
    rfl
  | some p =>
    show (({ spellIllegal (linkedAs (spellKeywords m).1 n) with relevance := _ } : Mode), _) = _
    rw [hillegal]
    rfl

theorem settled_linkedAs (parent : Option Mode) (m n : Mode) : settled parent (linkedAs m n) =
    (settled parent m).map fun q => { q with mode := linkedAs q.mode n } := by
  unfold settled
  simp only [linkedAs]
  simp only [bind, Except.bind, pure, Except.pure]
  split
  · rfl
  · split
    · rfl
    · rename_i begins _ _ ends _
      have hrest := spellRest_linkedAs parent { m with
        beginPattern := begins.1
        endPattern := ends.1
        beginScope := none
        endScope := none } n
      unfold linkedAs at hrest
      simp only [hrest]
      rfl

theorem onBegin_of_settled {parent : Option Mode} {q : Prepared} (h : settled parent m = .ok q) :
    q.mode.onBegin = m.onBegin := by
  have hrest : ∀ n, (spellRest parent n).1.onBegin = n.onBegin := by
    intro n
    have hkeywords : (spellKeywords n).1.onBegin = n.onBegin := by
      unfold spellKeywords
      split <;> rfl
    have hillegal : ∀ n, (spellIllegal n).onBegin = n.onBegin := by
      intro n
      unfold spellIllegal
      split <;> rfl
    show (spellIllegal (if parent.isSome then spellKeywords n else (n, false)).1).onBegin = _
    rw [hillegal]
    split
    · exact hkeywords
    · rfl
  unfold settled at h
  simp only [bind, Except.bind, pure, Except.pure] at h
  split at h
  · cases h
  · split at h
    · cases h
    · cases h
      exact hrest _

/-- The same but for what is left out. -/
structure SamePrepared (l : Language) (q q' : Prepared) : Prop where
  mode : Trimmed l none q.mode q'.mode
  beginScope : q'.beginScope = q.beginScope
  endScope : q'.endScope = q.endScope
  skipAfterDot : q'.skipAfterDot = q.skipAfterDot

/-- **A mode that is trimmed is prepared alike.** -/
theorem trimmed_prepare {place place' : Identity} {parent : Option Mode} {q q' : Prepared}
    (h : Trimmed l none raw raw') (hq : prepare [] place parent raw = .ok q)
    (hq' : prepare [] place' parent raw' = .ok q') : SamePrepared l q q' := by
  simp only [prepare_eq, bind, Except.bind] at hq hq'
  split at hq
  · cases hq
  · rename_i m1 hm1
    split at hq'
    · cases hq'
    · rename_i m1' hm1'
      split at hq
      · cases hq
      · rename_i m2 hm2
        split at hq'
        · cases hq'
        · rename_i m2' hm2'
          have h1 := h.step spelled_linkedAs (fun _ _ => onBegin_of_spelled) hm1 hm1'
          have h2 := trimmed_spellBefore h1 hm2 hm2'
          have h3 : Trimmed l none (moveScope m2) (moveScope m2') := by
            refine h2.step (f := fun m => .ok (moveScope m))
              (fun m n => congrArg Except.ok (moveScope_linkedAs m n)) (fun m n hn => ?_) rfl rfl
            cases hn
            exact onBegin_moveScope m
          generalize moveScope m2 = m at h3 hq
          generalize moveScope m2' = m' at h3 hq'
          have hmode : Trimmed l none q.mode q'.mode := by
            refine h3.step (f := fun m => (settled parent m).map (·.mode)) (fun m n => ?_)
              (fun m n hn => ?_) (by rw [hq]; rfl) (by rw [hq']; rfl)
            · rw [settled_linkedAs]
              cases settled parent m <;> rfl
            · cases hs : settled parent m with
              | error _ =>
                rw [hs] at hn
                cases hn
              | ok q =>
                rw [hs] at hn
                cases hn
                exact onBegin_of_settled hs
          rw [h3.trimmedBy.same, settled_linkedAs, hq] at hq'
          cases hq'
          exact ⟨hmode, rfl, rfl, rfl⟩

/-- A mode with nothing to be read before it keeps its hook. -/
theorem onBegin_of_prepare {place : Identity} {parent : Option Mode} {q : Prepared}
    (h : prepare [] place parent raw = .ok q) (hbefore : raw.beforeMatch = none) :
    q.mode.onBegin = raw.onBegin := by
  simp only [prepare_eq, bind, Except.bind] at h
  split at h
  · cases h
  · rename_i m1 hm1
    split at h
    · cases h
    · rename_i m2 hm2
      have hm : m1.beforeMatch = none := by rw [(links_spelled hm1).2.1, hbefore]
      simp only [spellBefore, hm] at hm2
      cases hm2
      rw [onBegin_of_settled h, onBegin_moveScope, onBegin_of_spelled hm1]

/-- What two modes come to by themselves is the same but for what is left out. -/
structure SameParts (l : Language) (p p' : Parts) : Prop where
  prepared : SamePrepared l p.prepared p'.prepared
  delimiters : p'.delimiters = p.delimiters
  illegal : p'.illegal = p.illegal
  keywords : p'.keywords = p.keywords

theorem TrimmedLanguage.caseInsensitive (hl : TrimmedLanguage l l') :
    l'.caseInsensitive = l.caseInsensitive := by
  rw [hl.same]

theorem TrimmedLanguage.extensions (hl : TrimmedLanguage l l') : l'.extensions = l.extensions := by
  rw [hl.same]

/-- **A mode that is trimmed comes to the same by itself.** -/
theorem trimmed_compileParts {parent : Option Parent} {key key' : Option Key} {p p' : Parts}
    (hl : TrimmedLanguage l l') (hext : l.extensions = []) (h : Trimmed l none raw raw')
    (hp : compileParts l parent key raw = .ok p) (hp' : compileParts l' parent key' raw' = .ok p') :
    SameParts l p p' := by
  have hprepared : SamePrepared l p.prepared p'.prepared := by
    have hq := prepare_of_compileParts hp
    have hq' := prepare_of_compileParts hp'
    rw [hl.extensions] at hq'
    rw [hext] at hq hq'
    exact trimmed_prepare h hq hq'
  obtain ⟨_, hdelimiters, hillegal, _, hkeywords⟩ := madeParts hp
  obtain ⟨_, hdelimiters', hillegal', _, hkeywords'⟩ := madeParts hp'
  have hsame := hprepared.mode.trimmedBy.same
  rw [hl.caseInsensitive, hsame] at hdelimiters' hkeywords'
  rw [hsame] at hillegal'
  refine ⟨hprepared, ?_, ?_, ?_⟩
  · exact Except.ok.inj (hdelimiters'.symm.trans hdelimiters)
  · exact hillegal'.trans hillegal.symm
  · exact Except.ok.inj (hkeywords'.symm.trans hkeywords)

end Highlight.Arena
