import Highlight.Proofs.Arena.Ends
import Highlight.Proofs.Arena.Names
import Highlight.Proofs.Arena.WellFormed
import Mathlib.Data.Finset.Prod

/-!
# How many modes can be open at once

While a mode is compiled it is open, and the modes inside it are compiled. A mode that is open is known
by its key and not opened again. So modes only nest deeper and deeper if new ones come, or if the keys
of the old ones change: those of modes that depend on the terminator around them.

* `Frame`, `Asks`, `Opens`, `Open` -- modes that are open, and those that can be opened inside them;
* `Reaches` -- a number of modes that are open where one more is asked for;
* `FailsDeep` -- that a step of the compilation fails for its depth only where that is so;
* `failsDeep_compileMode`, `reaches_of_tooDeep` -- every mode, and the root;
* `terminator_mem_terms`, `length_le_of_open` -- how many keys there are for the modes of a chain;
* `depth_limit_needs_growth_or_many_modes` -- **why the depth of a language exceeds the limit**.
-/

namespace Highlight.Arena

open Highlight.Grammar

variable {l : Language} {α β : Type} {b : Building}

/-! ## 1. Modes that are open -/

/-- A mode that is open: what it comes to, under the mode around it, and the place kept for it. The
    root is written under no identity. -/
structure Frame where
  mode : Option (Shared Mode)
  parent : Option Parent
  parts : Parts
  slot : Nat

namespace Frame

/-- The identity of an open mode. -/
def id (f : Frame) : Option Identity := f.mode.map (·.id)

/-- The key of an open mode. -/
def key (f : Frame) : Option Key := f.mode.map (keyOf · (outerTerminator f.parent))

/-- What the modes inside an open mode have to know of it. -/
def inner (f : Frame) : Parent := ⟨f.slot, f.parts.prepared.mode, f.parts.delimiters.terminator⟩

/-- Whether an open mode ends with the one around it. -/
def endsWithParent (f : Frame) : Bool := isSet f.parts.prepared.mode.endsWithParent

/-- **Whether a mode makes terminators grow**: it ends with the mode around it, and has an end of its
    own. -/
def growing (f : Frame) : Bool := f.endsWithParent && f.parts.delimiters.endSource.isSome

end Frame

/-- **What an open mode asks for**: the modes that it contains, or their variants, and the mode that it
    starts. -/
inductive Asks (l : Language) (f : Frame) : Shared Mode → Option Parent → Prop
  | contained {c : Contained Mode} {es : List (Option (Shared Mode))} {s : Shared Mode} :
      c ∈ f.parts.prepared.mode.contains.getD [] → entryOf l.repository c = .ok es → some s ∈ es →
      Asks l f s (some f.inner)
  | started {s : Shared Mode} : f.parts.prepared.mode.starts = some s → Asks l f s f.parent

/-- **A mode that can be opened**: the innermost one asks for it, and it is not open yet under the
    key that it has there. -/
structure Opens (l : Language) (fs : List Frame) (s : Shared Mode) (parent : Option Parent) :
    Prop where
  asked : ∃ f, fs.head? = some f ∧ Asks l f s parent
  fresh : some (keyOf s (outerTerminator parent)) ∉ fs.map Frame.key

/-- **Modes that can be open at once**, the innermost first and the root last. -/
inductive Open (l : Language) : List Frame → Prop
  | root {p : Parts} {slot : Nat} : compileParts l none none l.mode = .ok p →
      Open l [⟨none, none, p, slot⟩]
  | inside {fs : List Frame} {s : Shared Mode} {parent : Option Parent} {p : Parts} {slot : Nat} :
      Open l fs → Opens l fs s parent →
      compileParts l parent (some (keyOf s (outerTerminator parent))) s.value = .ok p →
      Open l (⟨some s, parent, p, slot⟩ :: fs)

/-- That `n` modes can be open where one more is asked for. -/
def Reaches (l : Language) (n : Nat) : Prop :=
  ∃ fs s parent, Open l fs ∧ Opens l fs s parent ∧ fs.length = n

/-! ## 2. Steps of the compilation -/

/-- That the modes that are open are known. -/
def Remembers (fs : List Frame) (b : Building) : Prop :=
  ∀ k, some k ∈ fs.map Frame.key → (b.memo.lookup k).isSome = true

/-- **A step of the compilation forgets no mode that is open**, and fails for its depth only with the
    limit, and where `n` modes can be open. -/
def FailsDeep (l : Language) (fs : List Frame) (n : Nat) (x : Build α) : Prop :=
  ∀ b, Remembers fs b → (∀ a b', x.run b = .ok (a, b') → Remembers fs b') ∧
    ∀ limit, x.run b = .error (.modeNestingTooDeep limit) → limit = maxNesting ∧ Reaches l n

variable {fs : List Frame} {n : Nat} {x : Build α} {f : α → Build β}

theorem failsDeep_bind (hx : FailsDeep l fs n x) (hf : ∀ a, FailsDeep l fs n (f a)) :
    FailsDeep l fs n (x >>= f) := by
  intro b hb
  obtain ⟨hok, herror⟩ := hx b hb
  rw [StateT.run_bind]
  cases hrun : x.run b with
  | error c =>
    refine ⟨fun a b' h => (by cases h), fun limit h => ?_⟩
    cases h
    exact herror limit hrun
  | ok y => exact hf y.1 y.2 (hok y.1 y.2 hrun)

theorem failsDeep_pure {a : α} : FailsDeep l fs n (pure a : Build α) := by
  refine fun b hb => ⟨fun a' b' h => ?_, fun limit h => by cases h⟩
  cases h
  exact hb

theorem failsDeep_throw {c : Cause} (hc : ∀ limit, c ≠ .modeNestingTooDeep limit) :
    FailsDeep l fs n (throw c : Build α) := by
  refine fun b _ => ⟨fun a b' h => (by cases h), fun limit h => ?_⟩
  cases h
  exact absurd rfl (hc limit)

theorem failsDeep_lift {y : Except Cause α} (hy : RefusedFor OfMode y) :
    FailsDeep l fs n (liftM y : Build α) := by
  cases y with
  | error c => exact failsDeep_throw (hy c rfl).flat
  | ok a => exact failsDeep_pure

/-- What is looked up remembers the modes that are open. -/
theorem failsDeep_get {rest : Building → Build α}
    (hrest : ∀ b, Remembers fs b → FailsDeep l fs n (rest b)) :
    FailsDeep l fs n (get >>= rest) :=
  fun b hb => hrest b hb b hb

/-- A mode that gets its place is open while the rest is done. -/
theorem failsDeep_reserve {f : Frame} {begins : String} {rest : Nat → Build α}
    (hrest : ∀ slot, FailsDeep l ({ f with slot } :: fs) n (rest slot)) :
    FailsDeep l fs n (reserve begins f.key >>= rest) := by
  intro b hb
  let kept : Building := ⟨b.slots.push none, b.begins.push begins,
    (f.key.map (·, b.slots.size)).toList ++ b.memo⟩
  have hkept : Remembers ({ f with slot := b.slots.size } :: fs) kept := by
    intro k hk
    show (List.lookup k ((f.key.map (·, b.slots.size)).toList ++ b.memo)).isSome = true
    rcases List.mem_cons.mp hk with hself | hk
    · rw [show f.key = some k from hself.symm]
      simp
    · cases hkey : f.key with
      | none => exact hb k hk
      | some k' =>
        rw [Option.map_some, Option.toList_some, List.singleton_append, List.lookup_cons]
        split
        · rfl
        · exact hb k hk
  obtain ⟨hok, herror⟩ := hrest b.slots.size kept hkept
  rw [show (reserve begins f.key >>= rest).run b = (rest b.slots.size).run kept from rfl]
  exact ⟨fun a b' h k hk => hok a b' h k (List.mem_cons_of_mem _ hk), herror⟩

/-! ## 3. Modes inside modes -/

section Inside

variable {compile : Compiler} {f : Frame}

/-- That a compiler forgets no mode, and fails deep only, for every mode that can be opened. -/
def OpensDeep (l : Language) (fs : List Frame) (n : Nat) (compile : Compiler) : Prop :=
  ∀ s parent, Opens l fs s parent →
    FailsDeep l fs n (compile s.value parent (some (keyOf s (outerTerminator parent))))

variable (hc : OpensDeep l fs n compile) (hf : fs.head? = some f)

include hc hf

theorem failsDeep_compileShared {s : Shared Mode} {parent : Option Parent} (hs : Asks l f s parent) :
    FailsDeep l fs n (compileShared compile s parent) := by
  unfold compileShared
  refine failsDeep_get fun b hb => ?_
  split
  · exact failsDeep_pure
  · rename_i hnone
    refine hc s parent ⟨⟨f, hf, hs⟩, fun hopen => ?_⟩
    have hsome := hb _ hopen
    unfold keyOf outerTerminator at hsome
    rw [hnone] at hsome
    cases hsome

theorem failsDeep_compileAll {parent : Option Parent} : ∀ {ms : List (Shared Mode)},
    (∀ s ∈ ms, Asks l f s parent) → FailsDeep l fs n (compileAll compile parent ms)
  | [], _ => failsDeep_pure
  | s :: ms, hms => by
      obtain ⟨hs, hms⟩ := List.forall_mem_cons.mp hms
      refine failsDeep_bind (failsDeep_compileShared hc hf hs) fun id => ?_
      exact failsDeep_bind (failsDeep_compileAll hms) fun ids => failsDeep_pure

theorem failsDeep_compileInner {s : Shared Mode}
    (hs : ∀ es, expanded s = .ok es → ∀ e ∈ es, Asks l f e (some f.inner)) :
    FailsDeep l fs n (compileInner compile f.inner s) := by
  unfold compileInner
  unfold expanded at hs
  cases hvariants : s.value.variants with
  | none =>
    rw [hvariants] at hs
    exact failsDeep_compileAll hc hf (hs _ rfl)
  | some variants =>
    rw [hvariants] at hs
    simp only at hs ⊢
    cases hexpanded : expandVariants s variants with
    | error c =>
      exact failsDeep_throw (refuses_expandVariants s variants c hexpanded).flat
    | ok es => exact failsDeep_compileAll hc hf (hs es hexpanded)

theorem failsDeep_compileContents : ∀ {cs : List (Contained Mode)},
    (∀ c ∈ cs, c ∈ f.parts.prepared.mode.contains.getD []) →
      FailsDeep l fs n (compileContents compile l.repository f.inner cs)
  | [], _ => failsDeep_pure
  | c :: cs, hcs => by
      obtain ⟨hmem, hcs⟩ := List.forall_mem_cons.mp hcs
      have hrest : ∀ ids : List Nat, FailsDeep l fs n
          (do return ids ++ (← compileContents compile l.repository f.inner cs)) := fun ids =>
        failsDeep_bind (failsDeep_compileContents hcs) fun _ => failsDeep_pure
      -- What an entry stands for is asked for.
      have hasks : ∀ s es, entryOf l.repository c = (expanded s).map (·.map some) →
          expanded s = .ok es → ∀ e ∈ es, Asks l f e (some f.inner) := by
        intro s es hentry hes e he
        rw [hes] at hentry
        exact .contained hmem hentry (List.mem_map_of_mem he)
      cases c with
      | self => exact hrest [f.inner.id]
      | named name =>
        unfold compileContents
        cases hnamed : l.repository.get? name with
        | none => exact failsDeep_throw fun limit h => by cases h
        | some s =>
          refine failsDeep_bind (failsDeep_compileInner hc hf fun es => hasks s es ?_) hrest
          simp only [entryOf, hnamed]
      | mode s =>
        exact failsDeep_bind (failsDeep_compileInner hc hf fun es => hasks s es rfl) hrest

theorem failsDeep_compileStarts :
    FailsDeep l fs n (compileStarts compile f.parent f.parts.prepared.mode.starts) := by
  cases hstarts : f.parts.prepared.mode.starts with
  | none => exact failsDeep_pure
  | some s =>
    exact failsDeep_bind (failsDeep_compileShared hc hf (.started hstarts)) fun _ => failsDeep_pure

theorem failsDeep_compileInside :
    FailsDeep l fs n (compileInside l compile f.parts f.parent f.slot) := by
  refine failsDeep_bind (failsDeep_compileContents hc hf fun _ hmem => hmem) fun contains => ?_
  refine failsDeep_bind (failsDeep_compileStarts hc hf) fun starts => ?_
  refine failsDeep_get fun begins _ => ?_
  exact failsDeep_bind (failsDeep_lift (refuses_make _ _)) fun rules => failsDeep_pure

end Inside

/-! ## 4. Modes -/

/-- The rest of a mode that has got its place: what is inside it, and then the place is filled. -/
theorem failsDeep_rest {compile : Compiler} {f : Frame} (hc : OpensDeep l (f :: fs) n compile) :
    FailsDeep l (f :: fs) n (do
      let m ← compileInside l compile f.parts f.parent f.slot
      fill f.slot m
      return f.slot) := by
  refine failsDeep_bind (failsDeep_compileInside hc rfl) fun m => ?_
  refine failsDeep_bind (fun b hb => ⟨fun a b' h => ?_, fun limit h => by cases h⟩)
    fun _ => failsDeep_pure
  cases h
  exact hb

/-- **A mode that can be opened fails deep only**: it uses up one of the modes that can still be
    opened, and then the same holds inside it. -/
theorem failsDeep_compileMode (room : Nat) {fs : List Frame} (hopen : Open l fs) :
    OpensDeep l fs (fs.length + room) (compileMode l room) := by
  induction room generalizing fs with
  | zero =>
    refine fun s parent hs b _ => ⟨fun a b' h => (by cases h), fun limit h => ?_⟩
    cases h
    exact ⟨rfl, fs, s, parent, hopen, hs, rfl⟩
  | succ room ih =>
    intro s parent hs
    rw [compileMode_succ]
    cases hparts : compileParts l parent (some (keyOf s (outerTerminator parent))) s.value with
    | error c => exact failsDeep_throw (refuses_compileParts _ _ _ _ c hparts).flat
    | ok p =>
      have hrest : ∀ slot, FailsDeep l (⟨some s, parent, p, slot⟩ :: fs) (fs.length + (room + 1)) (do
          let m ← compileInside l (compileMode l room) p parent slot
          fill slot m
          return slot) := by
        intro slot
        have hopened : Open l (⟨some s, parent, p, slot⟩ :: fs) := .inside hopen hs hparts
        have hinside := ih hopened
        rw [List.length_cons, Nat.add_right_comm, Nat.add_assoc] at hinside
        exact failsDeep_rest hinside
      exact failsDeep_reserve (f := ⟨some s, parent, p, 0⟩) hrest

variable {name : String} {fault : Fault} {limit : Nat}

/-- A language that is refused for its depth has a root that is. -/
theorem tooDeep_of_compileLanguage (h : compileLanguage name l = .error fault)
    (hdeep : fault.cause = .modeNestingTooDeep limit) :
    (compileMode l maxNesting l.mode none none).run .start = .error (.modeNestingTooDeep limit) := by
  cases hmodes : compileModes name l with
  | ok y =>
    simp only [compileLanguage, hmodes] at h
    cases h
  | error c =>
    simp only [compileLanguage, hmodes] at h
    cases h
    have hc : c = .modeNestingTooDeep limit := hdeep
    subst hc
    rw [compileModes_eq] at hmodes
    split at hmodes
    · cases hmodes
    · cases hrun : (compileMode l maxNesting l.mode none none).run .start with
      | error c =>
        rw [hrun] at hmodes
        cases hmodes
        rfl
      | ok y =>
        obtain ⟨modes, hfinish⟩ := finish_of_filled (laid_of_run hrun).2.2.1
        rw [hrun] at hmodes
        simp only [bind, Except.bind, hfinish] at hmodes
        cases hmodes

/-- **A language is refused for its depth only where as many modes can be open as the limit allows**,
    and one more is asked for. -/
theorem reaches_of_tooDeep (h : compileLanguage name l = .error fault)
    (hdeep : fault.cause = .modeNestingTooDeep limit) : limit = maxNesting ∧ Reaches l maxNesting := by
  have hrun := tooDeep_of_compileLanguage h hdeep
  rw [show maxNesting = 31 + 1 from rfl, compileMode_succ] at hrun
  cases hparts : compileParts l none none l.mode with
  | error c =>
    rw [hparts] at hrun
    cases hrun
    exact absurd rfl ((refuses_compileParts _ _ _ _ _ hparts).flat limit)
  | ok p =>
    rw [hparts] at hrun
    have hrest : ∀ slot, FailsDeep l [⟨none, none, p, slot⟩] maxNesting (do
        let m ← compileInside l (compileMode l 31) p none slot
        fill slot m
        return slot) := by
      intro slot
      have hroot : Open l [⟨none, none, p, slot⟩] := .root hparts
      exact failsDeep_rest (failsDeep_compileMode 31 hroot)
    exact (failsDeep_reserve (f := ⟨none, none, p, 0⟩) hrest .start
      fun k hk => by cases hk).2 limit hrun

/-! ## 5. Keys -/

/-- The modes that are open, but for the root. -/
def modesOf (fs : List Frame) : List (Shared Mode) := fs.filterMap Frame.mode

/-- The identities of the modes that do not depend on the modes around them. -/
def unbound (ms : List (Shared Mode)) : Finset Identity :=
  ((ms.filter fun m => !m.value.dependsOnParent).map Shared.id).toFinset

/-- The identities of the modes that do. -/
def bound (ms : List (Shared Mode)) : Finset Identity :=
  ((ms.filter fun m => m.value.dependsOnParent).map Shared.id).toFinset

/-- The ends of the modes that do not end with the modes around them. -/
def ends (fs : List Frame) : Finset String :=
  (fs.filterMap fun f => if f.endsWithParent then none else f.parts.delimiters.endSource).toFinset

/-- The identities of the modes that make terminators grow. -/
def growths (fs : List Frame) : Finset (Option Identity) :=
  ((fs.filter Frame.growing).map Frame.id).toFinset

/-- **That a mode that makes terminators grow is open inside itself.** -/
def Regrown (fs : List Frame) : Prop :=
  ∃ inner outer, [inner, outer].Sublist fs ∧ inner.growing = true ∧ outer.growing = true ∧
    inner.id = outer.id

/-- The terminators that there can be among open modes. -/
def terms (fs : List Frame) : Finset String :=
  insert "" (ends fs ∪ ((fs.filter Frame.growing).map (·.parts.delimiters.terminator)).toFinset)

theorem terms_subset_cons (f : Frame) (fs : List Frame) : terms fs ⊆ terms (f :: fs) := by
  intro t ht
  unfold terms ends at ht ⊢
  simp only [Finset.mem_insert, Finset.mem_union, List.mem_toFinset, List.mem_filterMap,
    List.mem_map, List.mem_filter, List.mem_cons] at ht ⊢
  rcases ht with ht | ⟨g, hg, ht⟩ | ⟨g, ⟨hg, hgrowing⟩, ht⟩
  · exact .inl ht
  · exact .inr (.inl ⟨g, .inr hg, ht⟩)
  · exact .inr (.inr ⟨g, ⟨.inr hg, hgrowing⟩, ht⟩)

/-- **Where no mode is open that has grown inside itself there are not many terminators**: no more than
    there are ends, and modes that grow. -/
theorem card_terms_le (h : ¬ Regrown fs) :
    (terms fs).card ≤ 1 + (ends fs).card + (growths fs).card := by
  have hnodup : ((fs.filter Frame.growing).map Frame.id).Nodup := by
    refine List.pairwise_map.mpr (List.pairwise_iff_forall_sublist.mpr fun {f g} hsub hid => h ?_)
    have hgrowing : ∀ x ∈ [f, g], x.growing = true := fun x hx =>
      (List.mem_filter.mp (hsub.subset hx)).2
    exact ⟨f, g, hsub.trans List.filter_sublist, hgrowing f (by simp), hgrowing g (by simp), hid⟩
  have hgrown : (((fs.filter Frame.growing).map
      (·.parts.delimiters.terminator)).toFinset).card ≤ (growths fs).card := by
    unfold growths
    rw [List.toFinset_card_of_nodup hnodup, List.length_map]
    exact (List.toFinset_card_le _).trans (Nat.le_of_eq (List.length_map _))
  have hinsert := Finset.card_insert_le "" (ends fs ∪ ((fs.filter Frame.growing).map
    (·.parts.delimiters.terminator)).toFinset)
  have hunion := Finset.card_union_le (ends fs) ((fs.filter Frame.growing).map
    (·.parts.delimiters.terminator)).toFinset
  unfold terms
  omega

/-- **The terminator of a mode** is none, or that of the mode around it, or its own end, unless it makes
    terminators grow. -/
theorem terminator_of_frame {f : Frame} {key : Option Key} {raw : Mode}
    (h : compileParts l f.parent key raw = .ok f.parts) :
    f.parts.delimiters.terminator = "" ∨
    f.parts.delimiters.terminator = outerTerminator f.parent ∨
    (f.endsWithParent = false ∧
      f.parts.delimiters.endSource = some f.parts.delimiters.terminator) ∨ f.growing = true := by
  obtain ⟨mode, parent, p, slot⟩ := f
  cases parent with
  | none => exact .inl (endless_of_root h).1
  | some q =>
    have hends := (delimiters_inside h).1
    have hterminator := terminator_of_compileParts h
    unfold Frame.growing Frame.endsWithParent
    simp only [outerTerminator, Option.map_some, Option.getD_some]
    unfold terminatorOf at hterminator
    cases hparent : isSet p.prepared.mode.endsWithParent with
    | false =>
      rw [hparent, Bool.false_and, if_neg Bool.false_ne_true] at hterminator
      refine .inr (.inr (.inl ⟨rfl, ?_⟩))
      rw [hends, hterminator]
      unfold ownEnd
      rw [hparent]
      cases p.prepared.mode.endPattern <;> rfl
    | true =>
      cases hown : ownEnd p.prepared.mode with
      | some own =>
        refine .inr (.inr (.inr ?_))
        rw [hends, hown]
        rfl
      | none =>
        rw [hown] at hterminator
        split at hterminator
        · exact .inr (.inl hterminator)
        · exact .inl hterminator

/-- What is asked for by an open mode is so under one of the terminators of open modes. -/
theorem asked_mem_terms (hall : ∀ f ∈ fs,
      f.parts.delimiters.terminator ∈ terms fs ∧ outerTerminator f.parent ∈ terms fs)
    {f : Frame} {s : Shared Mode} {parent : Option Parent} (hf : fs.head? = some f)
    (hs : Asks l f s parent) : outerTerminator parent ∈ terms fs := by
  have hmem := hall f (List.mem_of_mem_head? hf)
  cases hs with
  | contained => exact hmem.1
  | started => exact hmem.2

/-- **Every terminator of an open mode is one of these**, and so is every one around an open mode. -/
theorem terminator_mem_terms (hopen : Open l fs) : ∀ f ∈ fs,
    f.parts.delimiters.terminator ∈ terms fs ∧ outerTerminator f.parent ∈ terms fs := by
  have hself : ∀ {f : Frame} {fs : List Frame} {key : Option Key} {raw : Mode},
      compileParts l f.parent key raw = .ok f.parts → outerTerminator f.parent ∈ terms (f :: fs) →
      f.parts.delimiters.terminator ∈ terms (f :: fs) := by
    intro f fs key raw hparts houter
    unfold terms at houter ⊢
    rcases terminator_of_frame hparts with h | h | ⟨hparent, h⟩ | h
    · rw [h]
      exact Finset.mem_insert_self ..
    · rw [h]
      exact houter
    · refine Finset.mem_insert_of_mem (Finset.mem_union_left _ (List.mem_toFinset.mpr ?_))
      refine List.mem_filterMap.mpr ⟨f, List.mem_cons_self, ?_⟩
      rw [hparent, if_neg Bool.false_ne_true, h]
    · refine Finset.mem_insert_of_mem (Finset.mem_union_right _ (List.mem_toFinset.mpr ?_))
      exact List.mem_map_of_mem (List.mem_filter.mpr ⟨List.mem_cons_self, h⟩)
  induction hopen with
  | @root p slot hparts =>
    intro f hf
    rw [List.mem_singleton.mp hf]
    have houter : outerTerminator none ∈ terms [⟨none, none, p, slot⟩] := Finset.mem_insert_self ..
    exact ⟨hself hparts houter, houter⟩
  | @inside fs s parent p slot hopen hs hparts ih =>
    refine List.forall_mem_cons.mpr ⟨?_, fun f hf => ?_⟩
    · obtain ⟨g, hg, hasks⟩ := hs.asked
      have houter := terms_subset_cons ⟨some s, parent, p, slot⟩ fs (asked_mem_terms ih hg hasks)
      exact ⟨hself hparts houter, houter⟩
    · exact ⟨terms_subset_cons _ _ (ih f hf).1, terms_subset_cons _ _ (ih f hf).2⟩

/-- The keys that modes can have under some terminators. -/
def keysUnder (ms : List (Shared Mode)) (ts : Finset String) : Finset Key :=
  (unbound ms).image (fun id => ⟨id, none⟩) ∪ (bound ms ×ˢ ts).image fun x => ⟨x.1, some x.2⟩

theorem keyOf_mem_keysUnder {ms : List (Shared Mode)} {ts : Finset String} {s : Shared Mode}
    {t : String} (hs : s ∈ ms) (ht : t ∈ ts) : keyOf s t ∈ keysUnder ms ts := by
  unfold keyOf keysUnder
  cases hdepends : s.value.dependsOnParent with
  | false =>
    refine Finset.mem_union_left _ (Finset.mem_image.mpr ⟨s.id, ?_, rfl⟩)
    exact List.mem_toFinset.mpr
      (List.mem_map_of_mem (List.mem_filter.mpr ⟨hs, by rw [hdepends]; rfl⟩))
  | true =>
    refine Finset.mem_union_right _
      (Finset.mem_image.mpr ⟨(s.id, t), Finset.mem_product.mpr ⟨?_, ht⟩, rfl⟩)
    exact List.mem_toFinset.mpr (List.mem_map_of_mem (List.mem_filter.mpr ⟨hs, hdepends⟩))

/-- A mode that depends on its surroundings has one key for each terminator, any other has one. -/
theorem card_keysUnder_le (ms : List (Shared Mode)) (ts : Finset String) :
    (keysUnder ms ts).card ≤ (unbound ms).card + (bound ms).card * ts.card := by
  calc (keysUnder ms ts).card
      ≤ ((unbound ms).image fun id => (⟨id, none⟩ : Key)).card +
          ((bound ms ×ˢ ts).image fun x => (⟨x.1, some x.2⟩ : Key)).card := Finset.card_union_le ..
    _ ≤ (unbound ms).card + (bound ms ×ˢ ts).card :=
        Nat.add_le_add Finset.card_image_le Finset.card_image_le
    _ = (unbound ms).card + (bound ms).card * ts.card := by rw [Finset.card_product]

/-- **All open modes but the root have keys of their own.** -/
theorem keys_of_open (hopen : Open l fs) :
    (fs.filterMap Frame.key).Nodup ∧ (fs.filterMap Frame.key).length + 1 = fs.length := by
  induction hopen with
  | root => exact ⟨List.nodup_nil, rfl⟩
  | inside _ hs _ ih =>
    obtain ⟨hnodup, hlength⟩ := ih
    refine ⟨List.nodup_cons.mpr ⟨fun hmem => hs.fresh ?_, hnodup⟩, ?_⟩
    · obtain ⟨f, hf, hkey⟩ := List.mem_filterMap.mp hmem
      exact hkey ▸ List.mem_map_of_mem hf
    · rw [List.length_cons, ← hlength]
      rfl

/-- **As many modes as are open and asked for have keys among those that there can be.** -/
theorem length_le_of_open {s : Shared Mode} {parent : Option Parent} (hopen : Open l fs)
    (hs : Opens l fs s parent) : fs.length ≤ (keysUnder (s :: modesOf fs) (terms fs)).card := by
  obtain ⟨hnodup, hlength⟩ := keys_of_open hopen
  have hterms := terminator_mem_terms hopen
  have hnodup' : (keyOf s (outerTerminator parent) :: fs.filterMap Frame.key).Nodup := by
    refine List.nodup_cons.mpr ⟨fun hmem => hs.fresh ?_, hnodup⟩
    obtain ⟨f, hf, hkey⟩ := List.mem_filterMap.mp hmem
    exact hkey ▸ List.mem_map_of_mem hf
  have hall : (keyOf s (outerTerminator parent) :: fs.filterMap Frame.key).toFinset ⊆
      keysUnder (s :: modesOf fs) (terms fs) := by
    intro k hk
    rcases List.mem_cons.mp (List.mem_toFinset.mp hk) with rfl | hk
    · obtain ⟨f, hf, hasks⟩ := hs.asked
      exact keyOf_mem_keysUnder List.mem_cons_self (asked_mem_terms hterms hf hasks)
    · obtain ⟨f, hf, hkey⟩ := List.mem_filterMap.mp hk
      obtain ⟨m, hm, rfl⟩ := Option.map_eq_some_iff.mp hkey
      exact keyOf_mem_keysUnder (List.mem_cons_of_mem _ (List.mem_filterMap.mpr ⟨f, hf, hm⟩))
        (hterms f hf).2
  calc fs.length = (keyOf s (outerTerminator parent) :: fs.filterMap Frame.key).length := by
        rw [List.length_cons, hlength]
    _ = (keyOf s (outerTerminator parent) :: fs.filterMap Frame.key).toFinset.card :=
        (List.toFinset_card_of_nodup hnodup').symm
    _ ≤ _ := Finset.card_le_card hall

/-! ## 6. The limit -/

/-- **The depth of a language exceeds the limit only if terminators grow, or it has many modes.** A
    language that is refused for its depth has as many open modes as the limit says, root included, the
    innermost of which asks for one more under a key that none of them has. Either one that makes
    terminators grow is open inside itself; or the limit is no more than the number of modes that do not
    depend on their surroundings and, for each of those that do, one for every terminator: none, the
    ends of modes, and what grows. -/
theorem depth_limit_needs_growth_or_many_modes (h : compileLanguage name l = .error fault)
    (hdeep : fault.cause = .modeNestingTooDeep limit) : limit = maxNesting ∧
    ∃ fs s parent, Open l fs ∧ Opens l fs s parent ∧ fs.length = maxNesting ∧ (Regrown fs ∨
      let ms := s :: modesOf fs
      maxNesting ≤
        (unbound ms).card + (bound ms).card * (1 + (ends fs).card + (growths fs).card)) := by
  obtain ⟨hlimit, fs, s, parent, hopen, hs, hlength⟩ := reaches_of_tooDeep h hdeep
  refine ⟨hlimit, fs, s, parent, hopen, hs, hlength, ?_⟩
  by_cases hgrown : Regrown fs
  · exact .inl hgrown
  · refine .inr ?_
    calc maxNesting = fs.length := hlength.symm
      _ ≤ (keysUnder (s :: modesOf fs) (terms fs)).card := length_le_of_open hopen hs
      _ ≤ (unbound (s :: modesOf fs)).card + (bound (s :: modesOf fs)).card * (terms fs).card :=
          card_keysUnder_le ..
      _ ≤ _ := Nat.add_le_add_left (Nat.mul_le_mul_left _ (card_terms_le hgrown)) _

/-- Whether a language is refused, and with this fault. -/
def refusedWith (fault : Fault) : Except Fault Arena → Bool
  | .error f => f == fault
  | .ok _ => false

theorem eq_error_of_refusedWith {x : Except Fault Arena} (h : refusedWith fault x = true) :
    x = .error fault := by
  cases x with
  | error f => exact congrArg Except.error (eq_of_beq h)
  | ok arena => cases h

/-- Attributes that hold one another: each ends with a space, or where the tag around it does. -/
def growingLanguage : Language where
  repository := Dictionary.empty.insert "attr" ⟨[("attr", 0)], {
    beginPattern := some (.single "=")
    endPattern := some (.single " ")
    endsWithParent := some true
    contains := some [.named "attr"] }⟩
  mode := { contains := some [.mode ⟨[("tag", 0)], {
    beginPattern := some (.single "<")
    endPattern := some (.single ">")
    contains := some [.named "attr"] }⟩] }

/-- Attributes inside attributes are refused for their depth. -/
theorem attributes_exceed_limit :
    compileLanguage "tags" growingLanguage = .error (.ofGrammar (.modeNestingTooDeep 32) "tags") ∧
    ∃ fs s parent, Open growingLanguage fs ∧ Opens growingLanguage fs s parent ∧ fs.length = 32 ∧
      (Regrown fs ∨ let ms := s :: modesOf fs
        32 ≤ (unbound ms).card + (bound ms).card * (1 + (ends fs).card + (growths fs).card)) := by
  have hrefused : compileLanguage "tags" growingLanguage =
      .error (.ofGrammar (.modeNestingTooDeep 32) "tags") :=
    eq_error_of_refusedWith (by decide +kernel)
  exact ⟨hrefused, (depth_limit_needs_growth_or_many_modes hrefused rfl).2⟩

/-- A block. -/
def block : Mode := { beginPattern := some (.single "a"), endPattern := some (.single "b") }

/-- `n` blocks inside a block, one inside the other. -/
def nestedBlocks : Nat → Mode
  | 0 => block
  | n + 1 => { block with contains := some [.mode ⟨[("blocks", n)], nestedBlocks n⟩] }

/-- Thirty-two blocks inside one another. -/
def deepLanguage : Language where
  mode := { contains := some [.mode ⟨[("blocks", 31)], nestedBlocks 31⟩] }

theorem nestedBlocks_plain (n : Nat) : (nestedBlocks n).endsWithParent = none ∧
    (nestedBlocks n).variants = none ∧ (nestedBlocks n).starts = none := by
  cases n <;> exact ⟨rfl, rfl, rfl⟩

/-- The modes of the language are its root and the blocks. -/
theorem root_or_block {m : Mode} (hm : Within deepLanguage m) :
    m = deepLanguage.mode ∨ ∃ n, m = nestedBlocks n := by
  induction hm with
  | root => exact .inl rfl
  | named hmem => cases hmem
  | contained _ hmem ih =>
    rcases ih with rfl | ⟨n, rfl⟩
    · cases List.mem_singleton.mp hmem
      exact .inr ⟨31, rfl⟩
    · cases n with
      | zero => cases hmem
      | succ n =>
        cases List.mem_singleton.mp hmem
        exact .inr ⟨n, rfl⟩
  | variant _ hmem ih =>
    rcases ih with rfl | ⟨n, rfl⟩
    · cases hmem
    · rw [(nestedBlocks_plain n).2.1] at hmem
      cases hmem
  | started _ hmem ih =>
    rcases ih with rfl | ⟨n, rfl⟩
    · cases hmem
    · rw [(nestedBlocks_plain n).2.2] at hmem
      cases hmem

/-- **Modes that are written one inside the other can be too deep as well**, though none of them ends
    with the one around it. -/
theorem plain_blocks_exceed_limit :
    (∀ m, Within deepLanguage m → m.endsWithParent = none) ∧
    compileLanguage "blocks" deepLanguage =
      .error (.ofGrammar (.modeNestingTooDeep 32) "blocks") := by
  refine ⟨fun m hm => ?_, eq_error_of_refusedWith (by decide +kernel)⟩
  rcases root_or_block hm with rfl | ⟨n, rfl⟩
  · rfl
  · exact (nestedBlocks_plain n).1

end Highlight.Arena
