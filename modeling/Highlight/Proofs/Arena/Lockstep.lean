import Highlight.Proofs.Arena.Rescored
import Highlight.Proofs.Arena.WellFormed
import Highlight.Proofs.Registry.Built
import Highlight.Proofs.Scan.Trimmed

/-!
# Compiling side by side

A language and the same one with other scores are compiled step by step alike: they number their
modes alike, know the same modes again, and merge the same patterns.

* `RescoredMode`, `SameBuilding` -- compiled modes, and all that has been compiled so far;
* `Together`, `together_bind` -- steps of two compilations that are taken side by side;
* `together_compileContents`, `together_compileMode` -- what a mode contains, and a mode with it;
* `RescoredArena`, `rescored_compileLanguage` -- the languages.
-/

namespace Highlight.Arena

open Highlight.Grammar
open Highlight.Highlighter (name_of_compileLanguage)

/-! ## 1. What has been compiled -/

/-- **A compiled mode, and the same one with other scores.** -/
structure RescoredMode (m m' : ArenaMode) : Prop where
  same : ∃ relevance keywords, m' = { m with relevance, keywords }
  keywords : Option.Rel SameTables m.keywords m'.keywords

/-- What has been compiled so far is the same but for scores. -/
structure SameBuilding (b b' : Building) : Prop where
  slots : List.Forall₂ (Option.Rel RescoredMode) b.slots.toList b'.slots.toList
  begins : b'.begins = b.begins
  memo : b'.memo = b.memo

theorem SameBuilding.size {b b' : Building} (h : SameBuilding b b') :
    b'.slots.size = b.slots.size := by
  simpa using h.slots.length_eq.symm

theorem rescored_assemble {p p' : Parts} (hp : RescoredParts p p') (contains : List Nat)
    (starts : Option Nat) (rules : RuleSet) :
    RescoredMode (p.assemble contains starts rules) (p'.assemble contains starts rules) := by
  refine ⟨⟨p'.prepared.mode.relevance.getD 1, p'.keywords, ?_⟩, hp.keywords⟩
  have hmode := hp.prepared.mode.eq
  unfold Parts.assemble
  rw [hp.delimiters, hp.illegal, hp.prepared.beginScope, hp.prepared.endScope,
    hp.prepared.skipAfterDot]
  conv_lhs => rw [hmode]
  rfl

variable {α β α' β' : Type} {P : α → β → Prop} {Q : α' → β' → Prop} {x : Build α} {y : Build β}

/-- **Two steps of two compilations, taken side by side.** Where both succeed, their answers are
    related, and what has been compiled stays the same but for scores. -/
def Together (P : α → β → Prop) (x : Build α) (y : Build β) : Prop :=
  ∀ b b' a a' c c', SameBuilding b b' → x.run b = .ok (a, c) → y.run b' = .ok (a', c') →
    P a a' ∧ SameBuilding c c'

theorem together_bind {f : α → Build α'} {g : β → Build β'} (hx : Together P x y)
    (hf : ∀ a a', P a a' → Together Q (f a) (g a')) : Together Q (x >>= f) (y >>= g) := by
  intro b b' a a' c c' hb hrun hrun'
  rw [StateT.run_bind] at hrun hrun'
  obtain ⟨⟨a1, c1⟩, hx1, hrun⟩ := exists_of_bind hrun
  obtain ⟨⟨a1', c1'⟩, hx1', hrun'⟩ := exists_of_bind hrun'
  obtain ⟨hp, hc⟩ := hx _ _ _ _ _ _ hb hx1 hx1'
  exact hf a1 a1' hp _ _ _ _ _ _ hc hrun hrun'

theorem together_pure {a : α} {a' : β} (h : P a a') :
    Together P (pure a : Build α) (pure a' : Build β) := by
  intro b b' _ _ _ _ hb hrun hrun'
  cases hrun
  cases hrun'
  exact ⟨h, hb⟩

theorem together_throw (cause : Cause) : Together P (throw cause : Build α) y :=
  fun _ _ _ _ _ _ _ hrun => (by cases hrun)

theorem together_lift {z : Except Cause α} {w : Except Cause β}
    (h : ∀ a a', z = .ok a → w = .ok a' → P a a') :
    Together P (liftM z : Build α) (liftM w : Build β) := by
  intro b b' _ _ _ _ hb hrun hrun'
  cases z with
  | error e => cases hrun
  | ok _ =>
    cases w with
    | error e => cases hrun'
    | ok _ =>
      cases hrun
      cases hrun'
      exact ⟨h _ _ rfl rfl, hb⟩

theorem together_get : Together SameBuilding (get : Build Building) (get : Build Building) := by
  intro b b' _ _ _ _ hb hrun hrun'
  cases hrun
  cases hrun'
  exact ⟨hb, hb⟩

theorem together_reserve (begins : String) (key : Option Key) :
    Together Eq (reserve begins key) (reserve begins key) := by
  intro b b' _ _ _ _ hb hrun hrun'
  cases hrun
  cases hrun'
  refine ⟨hb.size.symm, ⟨?_, ?_, ?_⟩⟩
  · simp only [Array.toList_push]
    exact List.rel_append hb.slots (.cons .none .nil)
  · simp only [hb.begins]
  · simp only [hb.memo, hb.size]

theorem together_fill (id : Nat) {m m' : ArenaMode} (h : RescoredMode m m') :
    Together (fun _ _ => True) (fill id m) (fill id m') := by
  intro b b' _ _ _ _ hb hrun hrun'
  cases hrun
  cases hrun'
  refine ⟨trivial, ⟨?_, hb.begins, hb.memo⟩⟩
  simp only [Array.toList_setIfInBounds]
  exact forall₂_set hb.slots (.some h) id

/-! ## 2. Modes inside modes -/

variable {l l' : Language} {m m' v v' raw raw' : Mode} {s s' : Shared Mode}
  {parent parent' : Option Parent} {compile compile' : Compiler}

theorem sizeOf_starts_lt (h : m.starts = some s) : sizeOf s.value < sizeOf m := by
  cases m
  cases s
  cases h
  simp only [Mode.mk.sizeOf_spec, Option.some.sizeOf_spec, Shared.mk.sizeOf_spec]
  omega

/-- Whether a mode depends on the one around it does not depend on scores. -/
theorem dependsOnParent_rescored {m m' : Mode} (h : Rescored Eq m m') :
    m'.dependsOnParent = m.dependsOnParent := by
  have hends : m'.endsWithParent = m.endsWithParent := by
    rw [h.eq]
    rfl
  have hstarts := h.rescoredBy.starts
  rw [dependsOnParent_eq, dependsOnParent_eq, hends]
  cases hm : m.starts with
  | none =>
    rw [hm] at hstarts
    generalize m'.starts = s' at hstarts ⊢
    cases hstarts
    rfl
  | some s =>
    rw [hm] at hstarts
    generalize m'.starts = s' at hstarts ⊢
    cases hstarts with
    | some hs =>
      have hsmaller := sizeOf_starts_lt hm
      rw [Option.any_some, Option.any_some, dependsOnParent_rescored hs.value]
termination_by sizeOf m

/-- **Variants and the modes that they are laid over are the same but for scores together.** -/
theorem Rescored.inherit (h : Rescored Eq m m') (hv : Rescored Eq v v') :
    Rescored Eq (({ m with variants := none } : Mode).inherit v)
      (({ m' with variants := none } : Mode).inherit v') := by
  obtain ⟨_, hkeywords, hbegins, hcontains, _, hstarts⟩ := h.rescoredBy
  obtain ⟨_, hkeywords', hbegins', hcontains', hvariants', hstarts'⟩ := hv.rescoredBy
  refine RescoredBy.rescored ⟨?_, rel_orElse hkeywords' hkeywords, rel_orElse hbegins' hbegins,
    rel_orElse hcontains' hcontains, rel_orElse hvariants' .none, rel_orElse hstarts' hstarts⟩
  rw [h.eq, hv.eq]
  rfl

theorem rescored_expandVariants {vs vs' : List Mode} {es es' : List (Shared Mode)}
    (hs : SameShared (Rescored Eq) s s') (hvs : List.Forall₂ (Rescored Eq) vs vs')
    (h : expandVariants s vs = .ok es) (h' : expandVariants s' vs' = .ok es') :
    List.Forall₂ (SameShared (Rescored Eq)) es es' := by
  have hzip : ∀ (k : Nat), List.Forall₂ (fun x x' => Rescored Eq x.1 x'.1 ∧ x'.2 = x.2)
      (vs.zipIdx k) (vs'.zipIdx k) := by
    clear h h'
    induction hvs with
    | nil => exact fun _ => .nil
    | cons hv _ ih => exact fun k => .cons ⟨hv, rfl⟩ (ih (k + 1))
  refine forall₂_of_sources (hzip 0) (forall₂_of_mapM h) (forall₂_of_mapM h') ?_
  rintro ⟨v, i⟩ ⟨v', _⟩ e e' ⟨hv, rfl⟩ he he'
  simp only at he he'
  split at he
  · cases he
  · split at he'
    · cases he'
    · cases he
      cases he'
      exact ⟨by rw [hs.id], hs.value.inherit hv⟩

/-- Two compilers number modes alike that are the same but for scores, in modes that are. -/
def TogetherModes (compile compile' : Compiler) : Prop :=
  ∀ {raw raw' parent parent'} (key : Option Key), Rescored Eq raw raw' →
    Option.Rel RescoredParent parent parent' →
    Together Eq (compile raw parent key) (compile' raw' parent' key)

section Inner

variable (hc : TogetherModes compile compile')

include hc

theorem together_compileShared (hs : SameShared (Rescored Eq) s s')
    (hparent : Option.Rel RescoredParent parent parent') :
    Together Eq (compileShared compile s parent) (compileShared compile' s' parent') := by
  have hterminator : parent'.map (·.terminator) = parent.map (·.terminator) := by
    cases hparent with
    | none => rfl
    | some hp => exact congrArg some hp.terminator
  unfold compileShared
  rw [dependsOnParent_rescored hs.value, hterminator, hs.id]
  refine together_bind together_get fun b b' hb => ?_
  rw [hb.memo]
  split
  · exact together_pure rfl
  · exact hc _ hs.value hparent

theorem together_compileAll {ms ms' : List (Shared Mode)}
    (hms : List.Forall₂ (SameShared (Rescored Eq)) ms ms')
    (hparent : Option.Rel RescoredParent parent parent') :
    Together Eq (compileAll compile parent ms) (compileAll compile' parent' ms') := by
  induction hms with
  | nil => exact together_pure rfl
  | cons hm _ ih =>
    refine together_bind (together_compileShared hc hm hparent) ?_
    rintro id _ rfl
    refine together_bind ih ?_
    rintro ids _ rfl
    exact together_pure rfl

theorem together_compileInner {q q' : Parent} (hq : RescoredParent q q')
    (hs : SameShared (Rescored Eq) s s') :
    Together Eq (compileInner compile q s) (compileInner compile' q' s') := by
  have hvariants := hs.value.rescoredBy.variants
  unfold compileInner
  generalize s.value.variants = vs at hvariants ⊢
  generalize s'.value.variants = vs' at hvariants ⊢
  cases hvariants with
  | none => exact together_compileAll hc (.cons hs .nil) (.some hq)
  | some hvs =>
    refine together_bind (P := List.Forall₂ (SameShared (Rescored Eq)))
      (together_lift fun es es' h h' => rescored_expandVariants hs hvs h h') fun es es' hes => ?_
    exact together_compileAll hc hes (.some hq)

theorem together_compileContents (hl : RescoredLanguage Eq l l') {q q' : Parent}
    (hq : RescoredParent q q') {cs cs' : List (Contained Mode)}
    (hcs : List.Forall₂ (SameContained (Rescored Eq)) cs cs') :
    Together Eq (compileContents compile l.repository q cs)
      (compileContents compile' l'.repository q' cs') := by
  induction hcs with
  | nil => exact together_pure rfl
  | @cons c c' cs cs' hitem _ ih =>
    have hrest : ∀ ids : List Nat,
        Together Eq (do return ids ++ (← compileContents compile l.repository q cs))
          (do return ids ++ (← compileContents compile' l'.repository q' cs')) := by
      intro ids
      refine together_bind ih ?_
      rintro ids _ rfl
      exact together_pure rfl
    cases hitem with
    | self =>
      unfold compileContents
      rw [hq.id]
      exact hrest [q.id]
    | named name =>
      have hnamed := hl.repository name
      unfold compileContents
      generalize l.repository.get? name = s at hnamed ⊢
      generalize l'.repository.get? name = s' at hnamed ⊢
      cases hnamed with
      | none => exact together_throw _
      | some hs =>
        refine together_bind (together_compileInner hc hq hs) ?_
        rintro ids _ rfl
        exact hrest ids
    | mode hs =>
      refine together_bind (together_compileInner hc hq hs) ?_
      rintro ids _ rfl
      exact hrest ids

theorem together_compileStarts {s s' : Option (Shared Mode)}
    (hs : Option.Rel (SameShared (Rescored Eq)) s s')
    (hparent : Option.Rel RescoredParent parent parent') :
    Together Eq (compileStarts compile parent s) (compileStarts compile' parent' s') := by
  cases hs with
  | none => exact together_pure rfl
  | some hs =>
    refine together_bind (together_compileShared hc hs hparent) ?_
    rintro id _ rfl
    exact together_pure rfl

/-! ## 3. Modes -/

theorem together_compileInside (hl : RescoredLanguage Eq l l')
    (hparent : Option.Rel RescoredParent parent parent') {p p' : Parts} (hp : RescoredParts p p')
    (id : Nat) :
    Together RescoredMode (compileInside l compile p parent id)
      (compileInside l' compile' p' parent' id) := by
  have hmode := hp.prepared.mode
  have hcontains : List.Forall₂ (SameContained (Rescored Eq)) (p.prepared.mode.contains.getD [])
      (p'.prepared.mode.contains.getD []) := by
    have hby := hmode.rescoredBy.contains
    generalize p.prepared.mode.contains = cs at hby ⊢
    generalize p'.prepared.mode.contains = cs' at hby ⊢
    cases hby with
    | none => exact .nil
    | some hcs => exact hcs
  have hinner : RescoredParent ⟨id, p.prepared.mode, p.delimiters.terminator⟩
      ⟨id, p'.prepared.mode, p.delimiters.terminator⟩ := ⟨rfl, hmode, rfl⟩
  unfold compileInside
  rw [hp.delimiters, hp.illegal, hl.caseInsensitive]
  refine together_bind (together_compileContents hc hl hinner hcontains) ?_
  rintro contains _ rfl
  refine together_bind (together_compileStarts hc hmode.rescoredBy.starts hparent) ?_
  rintro starts _ rfl
  refine together_bind together_get fun b b' hb => ?_
  rw [hb.begins]
  refine together_bind (P := Eq) (together_lift fun rules rules' h h' => ?_) ?_
  · exact Except.ok.inj (h.symm.trans h')
  · rintro rules _ rfl
    exact together_pure (rescored_assemble hp contains starts rules)

end Inner

/-- **Modes that are the same but for scores are compiled side by side**, with all that they
    contain. -/
theorem together_compileMode (hl : RescoredLanguage Eq l l') : ∀ room : Nat,
    TogetherModes (compileMode l room) (compileMode l' room)
  | 0, _, _, _, _, _, _, _ => together_throw _
  | room + 1, raw, raw', parent, parent', key, h, hparent => by
      rw [compileMode_succ, compileMode_succ]
      refine together_bind (P := RescoredParts) (together_lift fun p p' hp hp' =>
        rescored_compileParts hl hparent h hp hp') fun p p' hp => ?_
      rw [hp.delimiters]
      refine together_bind (together_reserve _ _) ?_
      rintro id _ rfl
      refine together_bind (together_compileInside (together_compileMode hl room) hl hparent hp id)
        fun m m' hm => ?_
      exact together_bind (together_fill id hm) fun _ _ _ => together_pure rfl

/-! ## 4. Languages -/

/-- **Two compiled languages that are the same but for scores.** -/
structure RescoredArena (a a' : Arena) : Prop where
  name : a'.name = a.name
  root : a'.root = a.root
  aliases : a'.classNameAliases = a.classNameAliases
  modes : List.Forall₂ RescoredMode a.modes.toList a'.modes.toList

/-- The modes of a language are what its root has been compiled to, with all that it contains. -/
theorem exists_run_of_compileLanguage {name : String} {arena : Arena}
    (hc : compileLanguage name l = .ok arena) : ∃ b,
      (compileMode l maxNesting l.mode none none).run ⟨#[], #[], []⟩ = .ok (arena.root, b) ∧
        b.slots.toList = arena.modes.toList.map some := by
  obtain ⟨⟨root, modes⟩, hmodes, hc⟩ := exists_of_bind hc
  cases hc
  cases hcompiled : compileModes name l with
  | error e =>
    rw [hcompiled] at hmodes
    cases hmodes
  | ok compiled =>
    rw [hcompiled] at hmodes
    cases hmodes
    unfold compileModes at hcompiled
    split at hcompiled
    · cases hcompiled
    · obtain ⟨⟨root, b⟩, hrun, hcompiled⟩ := exists_of_bind hcompiled
      obtain ⟨modes, hfinish, hcompiled⟩ := exists_of_bind hcompiled
      cases hcompiled
      exact ⟨b, hrun, toList_of_finish hfinish⟩

/-- **Languages that are the same but for scores are compiled to the same**, but for scores. -/
theorem rescored_compileLanguage {name : String} {arena arena' : Arena}
    (hl : RescoredLanguage Eq l l') (hc : compileLanguage name l = .ok arena)
    (hc' : compileLanguage name l' = .ok arena') : RescoredArena arena arena' := by
  obtain ⟨b, hrun, hslots⟩ := exists_run_of_compileLanguage hc
  obtain ⟨b', hrun', hslots'⟩ := exists_run_of_compileLanguage hc'
  obtain ⟨hroot, hbuilt⟩ := together_compileMode hl maxNesting none hl.mode .none _ _ _ _ _ _
    ⟨.nil, rfl, rfl⟩ hrun hrun'
  refine ⟨?_, hroot.symm, ?_, ?_⟩
  · rw [name_of_compileLanguage hc, name_of_compileLanguage hc']
  · rw [(header_of_compileLanguage hc).2.2.2, (header_of_compileLanguage hc').2.2.2, hl.same]
  · have hmodes := hbuilt.slots
    rw [hslots, hslots', List.forall₂_map_left_iff, List.forall₂_map_right_iff] at hmodes
    exact hmodes.imp fun _ _ h => (by cases h with | some h => exact h)

end Highlight.Arena
