import Highlight.Proofs.Arena.Decoded
import Highlight.Proofs.Arena.Terminators

/-!
# Modes that stand in several places

A mode is compiled where it is met first, and its number is used wherever it is met again. What it
comes to is the same as if it had been compiled anew for each place.

* `prepare_congr`, `compileParts_congr` -- what of the mode around it a mode is compiled for;
* `Stands` -- the places that a written mode stands in, from the root on;
* `Fits` -- a compiled mode was compiled for what a place asks for;
* `fits_of_stands` -- every place has a mode that was;
* `sharing_is_transparent` -- a compiled mode is what its place asks for.
-/

namespace Highlight.Arena

open Highlight.Grammar Highlight.Json

variable {l : Language} {name : String} {arena : Arena} {b : Building} {parent parent' : Option Parent}
  {key : Option Key} {raw : Mode} {outer : Option String} {slot : Nat} {p : Parts}

/-! ## 1. What a mode is compiled for -/

/-- Without extensions, a mode is prepared alike in every mode. -/
theorem prepare_congr {place : Identity} {parent parent' : Option Mode}
    (h : parent.isSome = parent'.isSome) :
    prepare [] place parent raw = prepare [] place parent' raw := by
  have hrest : spellRest parent = spellRest parent' := by
    funext m
    unfold spellRest
    rw [h]
  simp only [prepare, extend, List.foldl_nil, hrest]

/-- The delimiters of a mode are the same in modes with one terminator, and in all modes if it does
    not end with them. -/
theorem compileDelimiters_congr {folded : Bool} {m : Mode} (hsome : parent.isSome = parent'.isSome)
    (h : isSet m.endsWithParent = true → parent.map (·.terminator) = parent'.map (·.terminator)) :
    compileDelimiters folded m parent = compileDelimiters folded m parent' := by
  cases parent with
  | none =>
    cases parent' with
    | none => rfl
    | some _ => cases hsome
  | some q =>
    cases parent' with
    | none => cases hsome
    | some q' =>
      have hterminator : terminatorOf m (ownEnd m) q.terminator =
          terminatorOf m (ownEnd m) q'.terminator := by
        cases hends : isSet m.endsWithParent with
        | false =>
          unfold terminatorOf
          rw [hends]
          rfl
        | true =>
          have heq : q.terminator = q'.terminator := Option.some.inj (h hends)
          rw [heq]
      simp only [compileDelimiters, hterminator]

/-- **A mode comes to the same in modes with one terminator**, and in all modes if it does not depend
    on them. -/
theorem compileParts_congr (hext : l.extensions = []) (hsome : parent.isSome = parent'.isSome)
    (h : raw.dependsOnParent = true → parent.map (·.terminator) = parent'.map (·.terminator)) :
    compileParts l parent key raw = compileParts l parent' key raw := by
  have hprepare : prepare [] (placeOf key) (parent.map (·.mode)) raw =
      prepare [] (placeOf key) (parent'.map (·.mode)) raw := prepare_congr (by simpa using hsome)
  unfold placeOf at hprepare
  simp only [compileParts, hext, hprepare]
  cases hq : prepare [] ((key.map Key.place).getD [("root", 0)]) (parent'.map (·.mode)) raw with
  | error cause => rfl
  | ok q =>
    have hdelimiters : compileDelimiters l.caseInsensitive q.mode parent =
        compileDelimiters l.caseInsensitive q.mode parent' :=
      compileDelimiters_congr hsome fun hends => h (dependsOnParent_of_prepare_ends hq hends)
    simp only [bind, Except.bind, hdelimiters]

/-! ## 2. Places -/

/-- What a written mode comes to by itself, in a mode with a terminator or in none. -/
def ComesTo (l : Language) (outer : Option String) (key : Option Key) (raw : Mode) (p : Parts) :
    Prop :=
  ∃ parent : Option Parent, parent.map (·.terminator) = outer ∧ compileParts l parent key raw = .ok p

/-- **The places that a written mode stands in**: the number of the compiled mode there, its key, the
    mode that is written there, and the terminator of the mode around it. The root has no mode around
    it, a mode is around what it contains, and what a mode starts stands where the mode does. -/
inductive Stands (l : Language) (arena : Arena) :
    Nat → Option Key → Mode → Option String → Prop
  | root : Stands l arena arena.root none l.mode none
  | contained {slot c i : Nat} {key : Option Key} {raw : Mode} {outer : Option String} {p : Parts}
      {entries : List (Option (Shared Mode))} {s : Shared Mode} :
      Stands l arena slot key raw outer → ComesTo l outer key raw p →
      entriesOf l.repository (p.prepared.mode.contains.getD []) = .ok entries →
      entries[i]? = some (some s) → (arena.mode slot).contains[i]? = some c →
      Stands l arena c (some (keyOf s (arena.mode slot).terminator)) s.value
        (some (arena.mode slot).terminator)
  | started {slot c : Nat} {key : Option Key} {raw : Mode} {outer : Option String} {p : Parts}
      {s : Shared Mode} :
      Stands l arena slot key raw outer → ComesTo l outer key raw p →
      p.prepared.mode.starts = some s → (arena.mode slot).starts = some c →
      Stands l arena c (some (keyOf s (outer.getD ""))) s.value outer

/-- **A compiled mode was compiled for what a place asks for**: for what is written there, with the
    key, and in a mode with the terminator, if it depends on that. -/
structure Fits (l : Language) (b : Building) (arena : Arena) (slot : Nat) (key : Option Key)
    (raw : Mode) (outer : Option String) (parent : Option Parent) (p : Parts) : Prop where
  comes : From l b slot (arena.mode slot) parent key raw p
  admitted : Admitted l (Knows l) parent raw key
  known : ∀ k, b.memo.lookup k = some slot ↔ key = some k
  inside : parent.isSome = outer.isSome
  depends : raw.dependsOnParent = true → parent.map (·.terminator) = outer

/-- What a mode that fits comes to is what it would come to anew. -/
theorem Fits.parts (hext : l.extensions = []) (h : Fits l b arena slot key raw outer parent p)
    (houter : parent'.map (·.terminator) = outer) : compileParts l parent' key raw = .ok p := by
  rw [← h.comes.parts]
  refine compileParts_congr hext ?_ fun hdepends => houter.trans (h.depends hdepends).symm
  rw [h.inside, ← houter, Option.isSome_map]

theorem Fits.comesTo (hext : l.extensions = []) (h : Fits l b arena slot key raw outer parent p)
    {p' : Parts} (hp : ComesTo l outer key raw p') : p' = p := by
  obtain ⟨parent', houter, hparts⟩ := hp
  exact Except.ok.inj (hparts.symm.trans (h.parts hext houter))

theorem Fits.terminator (h : Fits l b arena slot key raw outer parent p) :
    (arena.mode slot).terminator = p.delimiters.terminator := by
  rw [h.comes.assembled]
  rfl

/-- What a mode starts has one key in all modes that it fits in. -/
theorem Fits.keyOf_starts (hext : l.extensions = [])
    (h : Fits l b arena slot key raw outer parent p) {s : Shared Mode}
    (hs : p.prepared.mode.starts = some s) :
    keyOf s (outerTerminator parent) = keyOf s (outer.getD "") := by
  unfold keyOf
  cases hdepends : s.value.dependsOnParent with
  | false => rfl
  | true =>
    have hprepare := prepare_of_compileParts h.comes.parts
    rw [hext] at hprepare
    rw [outerTerminator, h.depends (dependsOnParent_of_prepare_starts hprepare hs hdepends)]

/-! ## 3. Every place has a mode that fits -/

/-- What a mode contains by its entries it contains by one of them. -/
theorem mem_entriesOf {repository : Dictionary String (Shared Mode)} {e : Option (Shared Mode)} :
    ∀ {cs : List (Contained Mode)} {es : List (Option (Shared Mode))},
      entriesOf repository cs = .ok es → e ∈ es →
      ∃ c ∈ cs, ∃ es', entryOf repository c = .ok es' ∧ e ∈ es'
  | [], es, h, he => by
      cases h
      cases he
  | c :: cs, es, h, he => by
      simp only [entriesOf, bind, Except.bind, pure, Except.pure] at h
      split at h
      · cases h
      · rename_i es1 hes1
        split at h
        · cases h
        · rename_i es2 hes2
          cases h
          rcases List.mem_append.mp he with he | he
          · exact ⟨c, List.mem_cons_self, es1, hes1, he⟩
          · obtain ⟨c', hc', es', hes', he'⟩ := mem_entriesOf hes2 he
            exact ⟨c', List.mem_cons_of_mem c hc', es', hes', he'⟩

section Places

variable (hb : Coherent l (Knows l) b) (hmodes : b.slots.toList = arena.modes.toList.map some)

include hb hmodes

/-- A mode of the language has been put into its place. -/
theorem exists_from {id : Nat} (hid : id < arena.modes.size) :
    ∃ parent key raw p, From l b id (arena.mode id) parent key raw p ∧
      Admitted l (Knows l) parent raw key ∧ ∀ k, b.memo.lookup k = some id ↔ key = some k := by
  refine hb.filled id (arena.mode id) ?_
  unfold Arena.mode
  rw [Array.getD_eq_getD_getElem?, ← Array.getElem?_toList, hmodes, List.getElem?_map,
    Array.getElem?_toList, Array.getElem?_eq_getElem hid]
  rfl

/-- **What is known by the key of a named mode was compiled for it**, in a mode with the same
    terminator, if it depends on that. -/
theorem fits_of_known (hw : WellNamed l) {s : Shared Mode} {c : Nat} {t : String}
    (hknows : Knows l outer.isSome s.id s.value) (ht : outer.getD "" = t)
    (hknown : b.memo.lookup (keyOf s t) = some c) :
    ∃ parent p, Fits l b arena c (some (keyOf s t)) s.value outer parent p := by
  have hlt : c < arena.modes.size := by
    have hsize : b.slots.size = arena.modes.size := by
      simpa using congrArg List.length hmodes
    exact hsize ▸ hb.known_lt _ c hknown
  obtain ⟨parent, key, raw, p, hfrom, hadmitted, hkey⟩ := exists_from hb hmodes hlt
  cases (hkey _).mp hknown
  obtain ⟨⟨hnames, hplace⟩, hterminator⟩ := hadmitted
  cases names_unique hw hnames hknows.1
  have hinside : parent.isSome = outer.isSome := by
    have hiff : parent.isSome = false ↔ outer.isSome = false := hplace.trans hknows.2.symm
    cases hp : parent.isSome with
    | false => exact (hiff.mp hp).symm
    | true =>
      cases ho : outer.isSome with
      | false => exact absurd (hp.symm.trans (hiff.mpr ho)) (by decide)
      | true => rfl
  refine ⟨parent, p, hfrom, ⟨⟨hnames, hplace⟩, hterminator⟩, hkey, hinside, fun hdepends => ?_⟩
  have hsame : outer.getD "" = outerTerminator parent := by
    rw [keyOf, hdepends] at hterminator
    exact ht.trans (Option.some.inj hterminator)
  cases parent with
  | none =>
    cases outer with
    | none => rfl
    | some _ => cases hinside
  | some q =>
    cases outer with
    | none => cases hinside
    | some _ => exact congrArg some hsame.symm

/-- **Every place has a mode that was compiled for what it asks for.** -/
theorem fits_of_stands (hw : WellNamed l) (hext : l.extensions = []) (hroot : l.mode.starts = none)
    (hlt : arena.root < arena.modes.size) (hkeyless : ∀ k, b.memo.lookup k ≠ some arena.root)
    (h : Stands l arena slot key raw outer) :
    ∃ parent p, Fits l b arena slot key raw outer parent p := by
  have hpasses := passes_names hw hext hroot
  induction h with
  | root =>
    obtain ⟨parent, key, raw, p, hfrom, hadmitted, hkey⟩ := exists_from hb hmodes hlt
    cases key with
    | some k => exact absurd ((hkey k).mpr rfl) (hkeyless k)
    | none =>
      obtain ⟨hparent, hraw⟩ := hadmitted
      subst hparent hraw
      exact ⟨none, p, hfrom, ⟨rfl, rfl⟩, hkey, rfl, fun _ => rfl⟩
  | @contained slot c i key raw outer p entries s _ hcomes hentries hs hc ih =>
    obtain ⟨parent, p', hfits⟩ := ih
    cases hfits.comesTo hext hcomes
    obtain ⟨entries', hentries', hmap⟩ := hfits.comes.contains
    cases Except.ok.inj (hentries.symm.trans hentries')
    have hknown : b.memo.lookup (keyOf s (arena.mode slot).terminator) = some c := by
      have hi := congrArg (·[i]?) hmap
      simp only [List.getElem?_map, hs, hc, Option.map_some, Option.some.injEq] at hi
      rw [hfits.terminator]
      exact hi
    obtain ⟨e, he, es, hes, hmem⟩ := mem_entriesOf hentries (List.mem_of_getElem? hs)
    exact fits_of_known hb hmodes hw (hpasses.contains hfits.admitted hfits.comes.parts he hes hmem)
      rfl hknown
  | @started slot c key raw outer p s _ hcomes hs hc ih =>
    obtain ⟨parent, p', hfits⟩ := ih
    cases hfits.comesTo hext hcomes
    have hknown : b.memo.lookup (keyOf s (outer.getD "")) = some c := by
      have hstarts := hfits.comes.starts
      rw [hs, hc, Option.map_some, Option.map_some, hfits.keyOf_starts hext hs] at hstarts
      exact Option.some.inj hstarts
    refine fits_of_known hb hmodes hw ?_ rfl hknown
    rw [← hfits.inside]
    exact hpasses.starts hfits.admitted hfits.comes.parts hs

end Places

/-! ## 4. Compiled as if anew -/

/-- The number of an entry of the mode `slot` with terminator `t`, given the numbers of keys. -/
def numberIn (number : Key → Nat) (slot : Nat) (t : String) : Option (Shared Mode) → Nat
  | none => slot
  | some s => number (keyOf s t)

/-- **A compiled mode is what its place asks for.** It has the number of its key, and in every mode
    with the terminator of the one around the place, what is written there would come to the same: to
    the same fields, with the modes that are known by the keys of its entries, in order. -/
structure AsIfAnew (l : Language) (arena : Arena) (number : Key → Nat) (slot : Nat)
    (key : Option Key) (raw : Mode) (outer : Option String) : Prop where
  numbered : ∀ k, key = some k → number k = slot
  made : ∀ parent : Option Parent, parent.map (·.terminator) = outer → ∃ p entries,
    compileParts l parent key raw = .ok p ∧
    (raw.beforeMatch = none → p.prepared.mode.contains = raw.contains) ∧
    entriesOf l.repository (p.prepared.mode.contains.getD []) = .ok entries ∧
    arena.mode slot = p.assemble
      (entries.map (numberIn number slot p.delimiters.terminator))
      (p.prepared.mode.starts.map fun s => number (keyOf s (outer.getD "")))
      (arena.mode slot).rules

/-- What has numbers has them in order. -/
theorem map_getD_of_map_some {α : Type} {f : α → Option Nat} {xs : List α} {ids : List Nat}
    (h : xs.map f = ids.map some) : xs.map (fun x => (f x).getD 0) = ids := by
  have hids := congrArg (List.map (·.getD 0)) h
  simpa [Function.comp_def] using hids

/-- Without extensions, a mode that nothing comes before contains what it is written with. -/
theorem contains_of_compileParts (hext : l.extensions = [])
    (h : compileParts l parent key raw = .ok p) (hbefore : raw.beforeMatch = none) :
    p.prepared.mode.contains = raw.contains := by
  have hprepare := prepare_of_compileParts h
  rw [hext] at hprepare
  obtain ⟨m, hm, ⟨_, hlinks⟩ | ⟨before, hsome, _, _⟩⟩ := links_prepare hprepare
  · exact congrArg Links.contains hlinks
  · rw [(links_spelled hm).2.1, hbefore] at hsome
    cases hsome

/-- What was compiled for a place is what the place asks for. -/
theorem Fits.asIfAnew (hext : l.extensions = []) (h : Fits l b arena slot key raw outer parent p) :
    AsIfAnew l arena (fun k => (b.memo.lookup k).getD 0) slot key raw outer where
  numbered := fun k hk => by
    rw [(h.known k).mpr hk]
    rfl
  made := fun parent' houter => by
    have hparts := h.parts hext houter
    obtain ⟨entries, hentries, hmap⟩ := h.comes.contains
    refine ⟨p, entries, hparts, contains_of_compileParts hext hparts, hentries, ?_⟩
    have hcontains : entries.map (numberIn (fun k => (b.memo.lookup k).getD 0) slot
        p.delimiters.terminator) = (arena.mode slot).contains := by
      rw [← map_getD_of_map_some hmap]
      refine List.map_congr_left fun e _ => ?_
      cases e <;> rfl
    have hstarts : (p.prepared.mode.starts.map fun s =>
        (b.memo.lookup (keyOf s (outer.getD ""))).getD 0) = (arena.mode slot).starts := by
      have hmap := h.comes.starts
      cases hs : p.prepared.mode.starts with
      | none =>
        rw [hs] at hmap
        cases hc : (arena.mode slot).starts with
        | none => rfl
        | some c =>
          rw [hc] at hmap
          cases hmap
      | some s =>
        rw [hs] at hmap
        cases hc : (arena.mode slot).starts with
        | none =>
          rw [hc] at hmap
          cases hmap
        | some c =>
          rw [hc, Option.map_some, Option.map_some, h.keyOf_starts hext hs] at hmap
          rw [Option.map_some, Option.some.inj hmap]
          rfl
    rw [hcontains, hstarts]
    exact h.comes.assembled

/-- **Modes are compiled once and are what every place asks for**: the mode at each place that is
    reached from the root is what is written there, compiled anew in any mode with the terminator of
    the one around it. -/
theorem sharing_is_transparent (hw : WellNamed l) (hext : l.extensions = [])
    (hroot : l.mode.starts = none) (hc : compileLanguage name l = .ok arena) :
    ∃ number : Key → Nat, ∀ slot key raw outer, Stands l arena slot key raw outer →
      AsIfAnew l arena number slot key raw outer := by
  obtain ⟨b, hb, hmodes, hkeyless⟩ := coherent_of_compileLanguage (passes_names hw hext hroot) hc
  refine ⟨fun k => (b.memo.lookup k).getD 0, fun slot key raw outer hstands => ?_⟩
  obtain ⟨parent, p, hfits⟩ := fits_of_stands hb hmodes hw hext hroot
    (made_of_compileLanguage hc).1 hkeyless hstands
  exact hfits.asIfAnew hext

/-- Two kinds of brackets with the same tail, which ends with either. -/
def bracketsGrammar : Json :=
  .object [
    ("contains", .array [
      .object [("begin", .string "<"), ("end", .string ">"), ("contains", .array [.string "tail"])],
      .object [("begin", .string "\\["), ("end", .string "\\]"),
        ("contains", .array [.string "tail"])]]),
    ("repository", .object [
      ("tail", .object [("scope", .string "tail"), ("begin", .string "-"),
        ("endsWithParent", .bool true)])])]

/-- The tail is compiled once for each kind of brackets. -/
theorem brackets_share_tail : ∃ l arena, Language.decode bracketsGrammar = some l ∧
    compileLanguage "brackets" l = .ok arena ∧ (arena.mode 2).terminator = ">" ∧
    (arena.mode 4).terminator = "\\]" ∧
    ∃ number : Key → Nat, ∀ slot key raw outer, Stands l arena slot key raw outer →
      AsIfAnew l arena number slot key raw outer := by
  have hcheck : ((Language.decode bracketsGrammar).any fun l =>
      l.extensions.isEmpty && l.mode.starts.isNone &&
        (compileLanguage "brackets" l).toOption.any fun arena =>
          (arena.mode 2).terminator == ">" && (arena.mode 4).terminator == "\\]") = true := by
    decide +kernel
  obtain ⟨l, hl, hcheck⟩ := (Option.any_eq_true _ _).mp hcheck
  simp only [Bool.and_eq_true] at hcheck
  obtain ⟨⟨hext, hroot⟩, hcheck⟩ := hcheck
  obtain ⟨arena, hc, hcheck⟩ := (Option.any_eq_true _ _).mp hcheck
  simp only [Bool.and_eq_true, beq_iff_eq] at hcheck
  have hcompiled : compileLanguage "brackets" l = .ok arena := by
    cases hresult : compileLanguage "brackets" l with
    | error f =>
      rw [hresult] at hc
      cases hc
    | ok arena' =>
      rw [hresult] at hc
      cases hc
      rfl
  exact ⟨l, arena, hl, hcompiled, hcheck.1, hcheck.2, sharing_is_transparent (wellNamed_of_decode hl)
    (List.isEmpty_iff.mp hext) (Option.isNone_iff_eq_none.mp hroot) hcompiled⟩

end Highlight.Arena
