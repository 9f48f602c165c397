import Highlight.Proofs.Arena.Compiled

/-!
# Modes known by their keys

The compiler knows a mode again by its key. What a compiled mode refers to are the modes known by the
keys of what it was written with, and every key stands for the mode that was compiled for it.

* `keyOf`, `entriesOf` -- the keys and the entries of a written mode;
* `From` -- a compiled mode is put together from a written one, and refers to the modes known by the
  keys of its entries;
* `Coherent` -- every place that is filled is so for the key that it is known by;
* `Grows`, `Steps` -- no key is lost, and a step of the compilation keeps everything coherent;
* `compiles_compileMode` -- every mode, with all that it contains;
* `coherent_of_compileLanguage`, `root_parts` -- the modes of a compiled language, and its root.
-/

namespace Highlight.Arena

open Highlight.Grammar

variable {l : Language} {Ok : Bool → Identity → Mode → Prop} {α β : Type} {b b' b'' : Building}

/-! ## 1. Keys and entries -/

/-- The key of a mode in a mode with terminator `t`. -/
def keyOf (m : Shared Mode) (t : String) : Key :=
  ⟨m.id, if m.value.dependsOnParent then some t else none⟩

/-- The terminator of the mode around another one, where there is one. -/
def outerTerminator (parent : Option Parent) : String := (parent.map (·.terminator)).getD ""

/-- A mode that stands in another one, or its variants in its place. -/
def expanded (m : Shared Mode) : Except Cause (List (Shared Mode)) :=
  match m.value.variants with
  | none => .ok [m]
  | some variants => expandVariants m variants

/-- What a mode contains by one entry: itself, a mode, or the variants of one. -/
def entryOf (repository : Dictionary String (Shared Mode)) :
    Contained Mode → Except Cause (List (Option (Shared Mode)))
  | .self => .ok [none]
  | .named name =>
    match repository.get? name with
    | none => .error (.unknownModeReference name)
    | some m => (expanded m).map (·.map some)
  | .mode m => (expanded m).map (·.map some)

/-- **What a mode contains, in order**, with variants in place of the modes that have them. -/
def entriesOf (repository : Dictionary String (Shared Mode)) :
    List (Contained Mode) → Except Cause (List (Option (Shared Mode)))
  | [] => .ok []
  | c :: cs => do return (← entryOf repository c) ++ (← entriesOf repository cs)

/-- The number that an entry of a mode is known by. -/
def Building.numberOf (b : Building) (self : Nat) (t : String) : Option (Shared Mode) → Option Nat
  | none => some self
  | some m => b.memo.lookup (keyOf m t)

/-! ## 2. Coherence -/

/-- **A compiled mode is put together from a written one**: its fields are what that comes to by
    itself, and the numbers in it are those that its entries are known by. -/
structure From (l : Language) (b : Building) (id : Nat) (m : ArenaMode) (parent : Option Parent)
    (key : Option Key) (raw : Mode) (p : Parts) : Prop where
  parts : compileParts l parent key raw = .ok p
  assembled : m = p.assemble m.contains m.starts m.rules
  contains : ∃ entries, entriesOf l.repository (p.prepared.mode.contains.getD []) = .ok entries ∧
    entries.map (b.numberOf id p.delimiters.terminator) = m.contains.map some
  starts : p.prepared.mode.starts.map (fun s => b.memo.lookup (keyOf s (outerTerminator parent))) =
    m.starts.map some

/-- What the compiler is asked for: the root, or a mode with the key that it has in the mode around
    it. `Ok` says which modes can stand for an identity, inside another mode or outside. -/
def Admitted (l : Language) (Ok : Bool → Identity → Mode → Prop) (parent : Option Parent)
    (raw : Mode) : Option Key → Prop
  | none => parent = none ∧ raw = l.mode
  | some k => Ok parent.isSome k.id raw ∧
      k.terminator = if raw.dependsOnParent then some (outerTerminator parent) else none

/-- **Every place that is filled is so for the one key that it is known by**; the root is known by
    none. -/
structure Coherent (l : Language) (Ok : Bool → Identity → Mode → Prop) (b : Building) : Prop where
  known_lt : ∀ k id, b.memo.lookup k = some id → id < b.slots.size
  filled : ∀ (id : Nat) (m : ArenaMode), b.slots[id]? = some (some m) →
    ∃ parent key raw p, From l b id m parent key raw p ∧ Admitted l Ok parent raw key ∧
      ∀ k, b.memo.lookup k = some id ↔ key = some k

/-- **No key is lost**, and a key that is new stands for a place that is. -/
structure Grows (b b' : Building) : Prop where
  known : ∀ k id, b.memo.lookup k = some id → b'.memo.lookup k = some id
  size_le : b.slots.size ≤ b'.slots.size
  fresh : ∀ k id, b'.memo.lookup k = some id → b.memo.lookup k = some id ∨ b.slots.size ≤ id

theorem Grows.refl (b : Building) : Grows b b := ⟨fun _ _ h => h, Nat.le_refl _, fun _ _ h => .inl h⟩

theorem Grows.trans (h : Grows b b') (h' : Grows b' b'') : Grows b b'' where
  known := fun k id hk => h'.known k id (h.known k id hk)
  size_le := Nat.le_trans h.size_le h'.size_le
  fresh := fun k id hk => by
    rcases h'.fresh k id hk with hk | hid
    · exact h.fresh k id hk
    · exact .inr (Nat.le_trans h.size_le hid)

/-- A place that was there before is known by the same keys. -/
theorem Grows.known_iff (h : Grows b b') {id : Nat} (hid : id < b.slots.size) (k : Key) :
    b'.memo.lookup k = some id ↔ b.memo.lookup k = some id := by
  refine ⟨fun hk => ?_, h.known k id⟩
  rcases h.fresh k id hk with hk | hle
  · exact hk
  · exact absurd hid (Nat.not_lt_of_le hle)

theorem map_some_mono {γ : Type} {f f' : γ → Option Nat} {xs : List γ} {ids : List Nat}
    (h : xs.map f = ids.map some) (hf : ∀ x id, f x = some id → f' x = some id) :
    xs.map f' = ids.map some := by
  rw [← h]
  refine List.map_congr_left fun x hx => ?_
  have hmem : f x ∈ ids.map some := h ▸ List.mem_map_of_mem hx
  obtain ⟨id, _, hid⟩ := List.mem_map.mp hmem
  rw [← hid]
  exact hf x id hid.symm

theorem Grows.numberOf (h : Grows b b') {self : Nat} {t : String} (e : Option (Shared Mode))
    (id : Nat) (he : b.numberOf self t e = some id) : b'.numberOf self t e = some id := by
  cases e with
  | none => exact he
  | some m => exact h.known _ _ he

/-- Where a mode comes from does not change while others are compiled. -/
theorem From.mono {id : Nat} {m : ArenaMode} {parent : Option Parent} {key : Option Key} {raw : Mode}
    {p : Parts} (h : From l b id m parent key raw p) (hg : Grows b b') :
    From l b' id m parent key raw p where
  parts := h.parts
  assembled := h.assembled
  contains := by
    obtain ⟨entries, hentries, hmap⟩ := h.contains
    exact ⟨entries, hentries, map_some_mono hmap hg.numberOf⟩
  starts := by
    have hstarts := h.starts
    cases hs : p.prepared.mode.starts with
    | none =>
      rw [hs] at hstarts
      exact hstarts
    | some s =>
      rw [hs] at hstarts
      cases hm : m.starts with
      | none =>
        rw [hm] at hstarts
        cases hstarts
      | some id =>
        rw [hm] at hstarts
        exact congrArg some (hg.known _ _ (Option.some.inj hstarts))

/-! ## 3. Steps -/

/-- A step of the compilation keeps everything coherent, loses no key, and answers as `P` says. -/
def Steps (l : Language) (Ok : Bool → Identity → Mode → Prop) (b : Building) (x : Build α)
    (P : α → Building → Prop) : Prop :=
  ∀ a b', Coherent l Ok b → x.run b = .ok (a, b') → Coherent l Ok b' ∧ Grows b b' ∧ P a b'

variable {x : Build α} {f : α → Build β} {P : α → Building → Prop} {Q : β → Building → Prop}

theorem steps_bind (hx : Steps l Ok b x P)
    (hf : ∀ a b', Grows b b' → P a b' → Steps l Ok b' (f a) Q) : Steps l Ok b (x >>= f) Q := by
  intro c b'' hb hrun
  rw [StateT.run_bind] at hrun
  cases hx' : x.run b with
  | error e =>
    rw [hx'] at hrun
    cases hrun
  | ok y =>
    obtain ⟨a, b1⟩ := y
    rw [hx'] at hrun
    obtain ⟨hb1, hg1, hp⟩ := hx a b1 hb hx'
    obtain ⟨hb2, hg2, hq⟩ := hf a b1 hg1 hp c b'' hb1 hrun
    exact ⟨hb2, hg1.trans hg2, hq⟩

theorem steps_pure {a : α} (h : P a b) : Steps l Ok b (pure a : Build α) P := by
  intro a' b' hb hrun
  cases hrun
  exact ⟨hb, .refl b, h⟩

theorem steps_throw {cause : Cause} : Steps l Ok b (throw cause : Build α) P := by
  intro a b' _ hrun
  cases hrun

theorem steps_lift (y : Except Cause α) :
    Steps l Ok b (liftM y : Build α) fun a b' => y = .ok a ∧ b' = b := by
  intro a b' hb hrun
  cases y with
  | error e => cases hrun
  | ok a' =>
    cases hrun
    exact ⟨hb, .refl b, rfl, rfl⟩

theorem steps_get : Steps l Ok b (get : Build Building) fun a b' => a = b ∧ b' = b := by
  intro a b' hb hrun
  cases hrun
  exact ⟨hb, .refl b, rfl, rfl⟩

theorem steps_mono {P' : α → Building → Prop} (hx : Steps l Ok b x P)
    (hP : ∀ a b', Grows b b' → P a b' → P' a b') : Steps l Ok b x P' := by
  intro a b' hb hrun
  obtain ⟨hb', hg, hp⟩ := hx a b' hb hrun
  exact ⟨hb', hg, hP a b' hg hp⟩

/-- A place is kept for a key that is not known yet. -/
theorem steps_reserve (begins : String) {key : Option Key}
    (hnew : ∀ k, key = some k → b.memo.lookup k = none) :
    Steps l Ok b (reserve begins key) fun id b' => id < b'.slots.size ∧
      ∀ k, b'.memo.lookup k = some id ↔ key = some k := by
  intro id b' hb hrun
  cases hrun
  have hsize : (b.slots.push none).size = b.slots.size + 1 := Array.size_push ..
  -- What is known by a key afterwards: the new place by the new key, and what was known before.
  have hlookup : ∀ k id, ((key.map (·, b.slots.size)).toList ++ b.memo).lookup k = some id ↔
      (key = some k ∧ id = b.slots.size) ∨ b.memo.lookup k = some id := by
    intro k id
    cases key with
    | none => simp
    | some k0 =>
      show List.lookup k ((k0, b.slots.size) :: b.memo) = some id ↔ _
      rw [List.lookup_cons]
      by_cases hk : k = k0
      · subst hk
        rw [hnew k rfl]
        simp [eq_comm]
      · have hk' : k0 ≠ k := fun h => hk h.symm
        rw [beq_false_of_ne hk]
        simp [hk']
  have hgrows : Grows b { b with
      slots := b.slots.push none
      begins := b.begins.push begins
      memo := (key.map (·, b.slots.size)).toList ++ b.memo } := {
    known := fun k id hk => (hlookup k id).mpr (.inr hk)
    size_le := by rw [hsize]; exact Nat.le_succ _
    fresh := fun k id hk => by
      rcases (hlookup k id).mp hk with ⟨_, rfl⟩ | hk
      · exact .inr (Nat.le_refl _)
      · exact .inl hk }
  refine ⟨⟨fun k id hk => ?_, fun id m hm => ?_⟩, hgrows, ?_, fun k => ?_⟩
  · show id < (b.slots.push none).size
    rw [hsize]
    rcases (hlookup k id).mp hk with ⟨_, rfl⟩ | hk
    · exact Nat.lt_succ_self _
    · exact Nat.lt_succ_of_lt (hb.known_lt k id hk)
  · have hm' : (b.slots.push none)[id]? = some (some m) := hm
    rw [Array.getElem?_push] at hm'
    split at hm'
    · cases hm'
    · obtain ⟨parent, key', raw, p, hfrom, hadmitted, hknown⟩ := hb.filled id m hm'
      have hid : id < b.slots.size := (Array.getElem?_eq_some_iff.mp hm').1
      exact ⟨parent, key', raw, p, hfrom.mono hgrows, hadmitted,
        fun k => (hgrows.known_iff hid k).trans (hknown k)⟩
  · show b.slots.size < (b.slots.push none).size
    rw [hsize]
    exact Nat.lt_succ_self _
  · refine ⟨fun hk => ?_, fun hkey => (hlookup k _).mpr (.inl ⟨hkey, rfl⟩)⟩
    rcases (hlookup k _).mp hk with ⟨hkey, _⟩ | hk
    · exact hkey
    · exact absurd (hb.known_lt k _ hk) (Nat.lt_irrefl _)

/-- A place is filled with a mode for its key. -/
theorem steps_fill {id : Nat} {m : ArenaMode} {parent : Option Parent} {key : Option Key} {raw : Mode}
    {p : Parts} (hfrom : From l b id m parent key raw p) (hadmitted : Admitted l Ok parent raw key)
    (hknown : ∀ k, b.memo.lookup k = some id ↔ key = some k) :
    Steps l Ok b (fill id m) fun _ b' => b'.memo = b.memo := by
  intro u b' hb hrun
  cases hrun
  have hsize : (b.slots.setIfInBounds id (some m)).size = b.slots.size :=
    Array.size_setIfInBounds
  have hgrows : Grows b { b with slots := b.slots.setIfInBounds id (some m) } :=
    ⟨fun _ _ h => h, Nat.le_of_eq hsize.symm, fun _ _ h => .inl h⟩
  refine ⟨⟨fun k id' hk => ?_, fun id' m' hm => ?_⟩, hgrows, rfl⟩
  · show id' < (b.slots.setIfInBounds id (some m)).size
    rw [hsize]
    exact hb.known_lt k id' hk
  · have hm' : (b.slots.setIfInBounds id (some m))[id']? = some (some m') := hm
    rw [Array.getElem?_setIfInBounds] at hm'
    split at hm'
    · rename_i heq
      split at hm'
      · cases hm'
        subst heq
        exact ⟨parent, key, raw, p, hfrom.mono hgrows, hadmitted, hknown⟩
      · cases hm'
    · obtain ⟨parent', key', raw', p', hfrom', hadmitted', hknown'⟩ := hb.filled id' m' hm'
      exact ⟨parent', key', raw', p', hfrom'.mono hgrows, hadmitted', hknown'⟩

/-! ## 4. Modes inside modes -/

section Inner

variable {compile : Compiler} {parent : Option Parent}

/-- That a compiler makes what it is asked for, and knows it by the key. -/
def Compiles (l : Language) (Ok : Bool → Identity → Mode → Prop) (compile : Compiler) : Prop :=
  ∀ raw parent key b, Admitted l Ok parent raw key →
    (∀ k, key = some k → b.memo.lookup k = none) →
    Steps l Ok b (compile raw parent key) fun id b' =>
      ∀ k, b'.memo.lookup k = some id ↔ key = some k

theorem steps_compileShared (hc : Compiles l Ok compile) {m : Shared Mode}
    (hm : Ok parent.isSome m.id m.value) : Steps l Ok b (compileShared compile m parent)
      fun id b' => b'.memo.lookup (keyOf m (outerTerminator parent)) = some id := by
  unfold compileShared
  refine steps_bind steps_get fun b1 b2 _ hb => ?_
  obtain ⟨rfl, rfl⟩ := hb
  split
  · rename_i id hid
    exact steps_pure hid
  · rename_i hnone
    refine steps_mono (hc m.value parent (some (keyOf m (outerTerminator parent))) _ ⟨hm, rfl⟩
      fun k hk => ?_) fun id b' _ h => (h _).mpr rfl
    cases hk
    exact hnone

theorem steps_compileAll (hc : Compiles l Ok compile) (parent : Option Parent)
    (ms : List (Shared Mode)) (hms : ∀ m ∈ ms, Ok parent.isSome m.id m.value) :
    Steps l Ok b (compileAll compile parent ms) fun ids b' =>
      ms.map (fun m => b'.memo.lookup (keyOf m (outerTerminator parent))) = ids.map some := by
  induction ms generalizing b with
  | nil => exact steps_pure rfl
  | cons m ms ih =>
    refine steps_bind (steps_compileShared hc (hms m List.mem_cons_self)) fun id b1 _ hid => ?_
    have hrest : Steps l Ok b1 (compileAll compile parent ms) fun ids b' =>
        (m :: ms).map (fun m => b'.memo.lookup (keyOf m (outerTerminator parent))) =
          (id :: ids).map some := by
      refine steps_mono (ih fun m' hm' => hms m' (List.mem_cons_of_mem m hm')) fun ids b2 hg hids => ?_
      rw [List.map_cons, List.map_cons, hids, hg.known _ _ hid]
    exact steps_bind hrest fun ids b2 _ hids => steps_pure hids

theorem steps_compileInner (hc : Compiles l Ok compile) (parent : Parent) (m : Shared Mode)
    (hms : ∀ ms, expanded m = .ok ms → ∀ s ∈ ms, Ok true s.id s.value) :
    Steps l Ok b (compileInner compile parent m) fun ids b' => ∃ ms, expanded m = .ok ms ∧
      ms.map (fun s => b'.memo.lookup (keyOf s parent.terminator)) = ids.map some := by
  unfold compileInner
  cases hv : m.value.variants with
  | none =>
    have hexpanded : expanded m = .ok [m] := by
      unfold expanded
      rw [hv]
    exact steps_mono (steps_compileAll hc (some parent) [m] (hms _ hexpanded))
      fun ids b' _ hids => ⟨_, hexpanded, hids⟩
  | some variants =>
    refine steps_bind (steps_lift _) fun ms b1 _ h => ?_
    obtain ⟨hexpand, rfl⟩ := h
    have hexpanded : expanded m = .ok ms := by
      unfold expanded
      rw [hv]
      exact hexpand
    exact steps_mono (steps_compileAll hc (some parent) ms (hms ms hexpanded))
      fun ids b' _ hids => ⟨_, hexpanded, hids⟩

/-- **The numbers that a mode contains are those that its entries are known by.** -/
theorem steps_compileContents (hc : Compiles l Ok compile)
    {repository : Dictionary String (Shared Mode)} {parent : Parent} (cs : List (Contained Mode))
    (hcs : ∀ c ∈ cs, ∀ es, entryOf repository c = .ok es →
      ∀ s, some s ∈ es → Ok true s.id s.value) :
    Steps l Ok b (compileContents compile repository parent cs) fun ids b' =>
      ∃ es, entriesOf repository cs = .ok es ∧
        es.map (b'.numberOf parent.id parent.terminator) = ids.map some := by
  induction cs generalizing b with
  | nil => exact steps_pure ⟨[], rfl, rfl⟩
  | cons c cs ih =>
    -- One entry has been compiled; the others come behind it.
    have hbehind : ∀ {b1 : Building} (es : List (Option (Shared Mode))) (ids : List Nat),
        entryOf repository c = .ok es →
        es.map (b1.numberOf parent.id parent.terminator) = ids.map some →
        Steps l Ok b1 (do return ids ++ (← compileContents compile repository parent cs))
          fun ids b' => ∃ es, entriesOf repository (c :: cs) = .ok es ∧
            es.map (b'.numberOf parent.id parent.terminator) = ids.map some := by
      intro b1 es ids hes hids
      have hrest : Steps l Ok b1 (compileContents compile repository parent cs) fun ids' b' =>
          ∃ es, entriesOf repository (c :: cs) = .ok es ∧
            es.map (b'.numberOf parent.id parent.terminator) = (ids ++ ids').map some := by
        refine steps_mono (ih fun c' hc' => hcs c' (List.mem_cons_of_mem c hc')) ?_
        rintro ids' b2 hg ⟨es', hes', hids'⟩
        refine ⟨es ++ es', ?_, ?_⟩
        · unfold entriesOf
          rw [hes, hes']
          rfl
        · rw [List.map_append, List.map_append, hids', map_some_mono hids hg.numberOf]
      exact steps_bind hrest fun ids' b2 _ h => steps_pure h
    have hinner : ∀ m, entryOf repository c = (expanded m).map (·.map some) →
        Steps l Ok b (do
          let ids ← compileInner compile parent m
          return ids ++ (← compileContents compile repository parent cs))
          fun ids b' => ∃ es, entriesOf repository (c :: cs) = .ok es ∧
            es.map (b'.numberOf parent.id parent.terminator) = ids.map some := by
      intro m hentry
      refine steps_bind (steps_compileInner hc parent m fun ms hms s hs => ?_) ?_
      · refine hcs c List.mem_cons_self (ms.map some) ?_ s (List.mem_map_of_mem hs)
        rw [hentry, hms]
        rfl
      · rintro ids b1 _ ⟨ms, hms, hids⟩
        refine hbehind (ms.map some) ids ?_ ?_
        · rw [hentry, hms]
          rfl
        · rw [List.map_map]
          exact hids
    cases c with
    | self => exact hbehind [none] [parent.id] rfl rfl
    | named name =>
      unfold compileContents
      cases hname : repository.get? name with
      | none => exact steps_throw
      | some m =>
        refine hinner m ?_
        simp only [entryOf, hname]
    | mode m => exact hinner m rfl

theorem steps_compileStarts (hc : Compiles l Ok compile) (m : Option (Shared Mode))
    (hm : ∀ s, m = some s → Ok parent.isSome s.id s.value) :
    Steps l Ok b (compileStarts compile parent m) fun starts b' =>
      m.map (fun s => b'.memo.lookup (keyOf s (outerTerminator parent))) = starts.map some := by
  cases m with
  | none => exact steps_pure rfl
  | some m =>
    refine steps_bind (steps_compileShared hc (hm m rfl)) fun id b1 _ hid => ?_
    exact steps_pure (congrArg some hid)

end Inner

/-! ## 5. Modes -/

/-- **What a mode refers to can stand for its identity again**: what it contains inside it, and what
    it starts wherever it stands itself. -/
structure Passes (l : Language) (Ok : Bool → Identity → Mode → Prop) : Prop where
  contains : ∀ {parent key raw p c es s}, Admitted l Ok parent raw key →
    compileParts l parent key raw = .ok p → c ∈ p.prepared.mode.contains.getD [] →
    entryOf l.repository c = .ok es → some s ∈ es → Ok true s.id s.value
  starts : ∀ {parent key raw p s}, Admitted l Ok parent raw key →
    compileParts l parent key raw = .ok p → p.prepared.mode.starts = some s →
    Ok parent.isSome s.id s.value

/-- **A mode with all that it contains is compiled coherently.** -/
theorem compiles_compileMode (hpasses : Passes l Ok) (room : Nat) :
    Compiles l Ok (compileMode l room) := by
  induction room with
  | zero => exact fun raw parent key b _ _ => steps_throw
  | succ room ih =>
    intro raw parent key b hadmitted hnew
    refine steps_bind (steps_lift _) fun p b1 _ h => ?_
    obtain ⟨hparts, rfl⟩ := h
    refine steps_bind (steps_reserve _ hnew) fun id b2 _ hid => ?_
    obtain ⟨hlt, hkey⟩ := hid
    refine steps_bind (steps_compileContents ih (p.prepared.mode.contains.getD [])
      fun c hc es hes s hs => hpasses.contains hadmitted hparts hc hes hs) fun contains b3 hg3 h => ?_
    obtain ⟨entries, hentries, hcontains⟩ := h
    refine steps_bind (steps_compileStarts ih p.prepared.mode.starts
      fun s hs => hpasses.starts hadmitted hparts hs) fun starts b4 hg4 hstarts => ?_
    refine steps_bind steps_get fun b5 b6 hg6 h => ?_
    obtain ⟨rfl, rfl⟩ := h
    refine steps_bind (steps_lift _) fun rules b7 hg7 h => ?_
    obtain ⟨_, rfl⟩ := h
    have hfrom : From l b7 id (p.assemble contains starts rules) parent key raw p := {
      parts := hparts
      assembled := rfl
      contains := ⟨entries, hentries, map_some_mono hcontains hg4.numberOf⟩
      starts := hstarts }
    have hknown : ∀ k, b7.memo.lookup k = some id ↔ key = some k :=
      fun k => ((hg3.trans hg4).known_iff hlt k).trans (hkey k)
    refine steps_bind (steps_fill hfrom hadmitted hknown) fun _ b8 _ hmemo => ?_
    refine steps_pure ?_
    rw [hmemo]
    exact hknown

/-! ## 6. Languages -/

/-- **A compiled language is coherent**, and its root is the only mode without a key. -/
theorem coherent_of_compileLanguage {name : String} {arena : Arena} (hpasses : Passes l Ok)
    (h : compileLanguage name l = .ok arena) : ∃ b, Coherent l Ok b ∧
      b.slots.toList = arena.modes.toList.map some ∧ ∀ k, b.memo.lookup k ≠ some arena.root := by
  simp only [compileLanguage, bind, Except.bind] at h
  split at h
  · cases h
  · rename_i y hy
    cases h
    obtain ⟨root, modes⟩ := y
    have hmodes : compileModes name l = .ok (root, modes) := by
      cases hc : compileModes name l with
      | error e =>
        rw [hc] at hy
        cases hy
      | ok z =>
        rw [hc] at hy
        cases hy
        rfl
    simp only [compileModes, bind, Except.bind] at hmodes
    split at hmodes
    · cases hmodes
    · split at hmodes
      · cases hmodes
      · rename_i z hz
        obtain ⟨root', b⟩ := z
        simp only at hmodes
        split at hmodes
        · cases hmodes
        · rename_i modes' hfinish
          cases hmodes
          have hempty : Coherent l Ok ⟨#[], #[], []⟩ := {
            known_lt := fun k id hk => by cases hk
            filled := fun id m hm => by simp at hm }
          obtain ⟨hb, _, hroot⟩ := compiles_compileMode hpasses maxNesting l.mode none none
            ⟨#[], #[], []⟩ ⟨rfl, rfl⟩ (fun k hk => by cases hk) _ b hempty hz
          refine ⟨b, hb, toList_of_finish hfinish, fun k hk => ?_⟩
          cases (hroot k).mp hk

/-- **The root is compiled from the mode of the language.** -/
theorem root_parts {name : String} {arena : Arena} (h : compileLanguage name l = .ok arena) :
    ∃ p, compileParts l none none l.mode = .ok p ∧ arena.mode arena.root =
      p.assemble (arena.mode arena.root).contains (arena.mode arena.root).starts
        (arena.mode arena.root).rules := by
  have hpasses : Passes l fun _ _ _ => True := ⟨fun _ _ _ _ _ => trivial, fun _ _ _ => trivial⟩
  obtain ⟨b, hb, hmodes, hroot⟩ := coherent_of_compileLanguage hpasses h
  have hlt := (made_of_compileLanguage h).1
  have hslot : b.slots[arena.root]? = some (some (arena.mode arena.root)) := by
    rw [← Array.getElem?_toList, hmodes, List.getElem?_map, Array.getElem?_toList, Arena.mode,
      Array.getD_eq_getD_getElem?, Array.getElem?_eq_getElem hlt]
    rfl
  obtain ⟨parent, key, raw, p, hfrom, hadmitted, hkey⟩ := hb.filled _ _ hslot
  cases key with
  | some k => exact absurd ((hkey k).mpr rfl) (hroot k)
  | none =>
    obtain ⟨rfl, rfl⟩ := hadmitted
    exact ⟨p, hfrom.parts, hfrom.assembled⟩

end Highlight.Arena
