import Highlight.Proofs.Arena.Compiled
import Highlight.Proofs.Arena.Delimiters

/-!
# Arenas are well formed

A place is kept for a mode before what it contains is compiled, and with it the pattern of its
beginning; the rules of a mode are made from these patterns, also for modes that are not complete
yet. When the compilation is over every place is filled, and the patterns are those of the modes.

* `OfGrammar`, `OfMode`, `Refuses` -- the causes for which a grammar is refused, and those that lie in
  one mode; a gap is none of them;
* `Laid`, `WellLaid` -- modes whose rules go with the patterns that are kept beside them;
* `Extends` -- what has been compiled stays, and no new place has a gap;
* `Lays` -- that a step of the compilation keeps this up;
* `lays_compileMode` -- every mode, with all that it contains;
* `fault_of_compileLanguage` -- the faults of languages that are not compiled;
* `WellFormed`, `compiled_arena_is_well_formed` -- languages.
-/

namespace Highlight.Arena

open Highlight.Grammar

variable {language : Language} {α β : Type} {b b' b'' : Building}

/-! ## 1. Causes -/

/-- A cause that lies in what a grammar says, not in how its modes were put together, nor in a text
    that is read. -/
structure OfGrammar (c : Cause) : Prop where
  configuration : c.isConfiguration = true
  noGap : ∀ message, c ≠ .invalidGrammarData message

/-- A cause that lies in what a mode says by itself, not in how deep it stands. -/
structure OfMode (c : Cause) : Prop extends OfGrammar c where
  flat : ∀ limit, c ≠ .modeNestingTooDeep limit

/-- That something is refused only for causes of one kind. -/
def RefusedFor (C : Cause → Prop) (x : Except Cause α) : Prop := ∀ c, x = .error c → C c

/-- That something is refused only for what a grammar says. -/
def Refuses (x : Except Cause α) : Prop := RefusedFor OfGrammar x

section Generic

variable {C : Cause → Prop}

theorem refuses_ok (a : α) : RefusedFor C (.ok a : Except Cause α) := fun _ h => by cases h

theorem refuses_error {c : Cause} (h : C c) : RefusedFor C (.error c : Except Cause α) := by
  intro c' hc
  cases hc
  exact h

theorem refuses_bind {x : Except Cause α} {f : α → Except Cause β} (hx : RefusedFor C x)
    (hf : ∀ a, x = .ok a → RefusedFor C (f a)) : RefusedFor C (x >>= f) := by
  intro c hc
  cases h : x with
  | error e =>
    rw [h] at hc
    cases hc
    exact hx c h
  | ok a =>
    rw [h] at hc
    exact hf a h c hc

theorem refuses_mapM {f : α → Except Cause β} (hf : ∀ a, RefusedFor C (f a)) :
    ∀ xs : List α, RefusedFor C (xs.mapM f)
  | [] => refuses_ok []
  | x :: xs => by
      rw [List.mapM_cons]
      refine refuses_bind (hf x) fun y _ => ?_
      exact refuses_bind (refuses_mapM hf xs) fun ys _ => refuses_ok _

theorem refuses_option {f : α → Except Cause β} (hf : ∀ a, RefusedFor C (f a)) :
    ∀ x : Option α, RefusedFor C (x.mapM f)
  | none => refuses_ok none
  | some a => by
      rw [Option.mapM_some]
      intro c hc
      cases h : f a with
      | error e =>
        rw [h] at hc
        cases hc
        exact hf a c h
      | ok y =>
        rw [h] at hc
        cases hc

end Generic

theorem refuses_badPattern {pattern : String} (x : Except Regex.Fault α) :
    RefusedFor OfMode (x.mapError (badPattern pattern)) := by
  intro c hc
  obtain ⟨message, rfl⟩ := badPattern_of_mapError hc
  exact ⟨⟨rfl, fun _ h => by cases h⟩, fun _ h => by cases h⟩

theorem refuses_mergedFrom (rs : RuleSet) (k : Nat) : RefusedFor OfMode (rs.mergedFrom k) := by
  intro c hc
  obtain ⟨pattern, message, rfl⟩ := RuleSet.mergedFrom_error hc
  exact ⟨⟨rfl, fun _ h => by cases h⟩, fun _ h => by cases h⟩

theorem refuses_make (rules : List Rule) (folded : Bool) : RefusedFor OfMode (RuleSet.make rules folded) := by
  unfold RuleSet.make
  simp only
  split
  · exact refuses_ok _
  · exact refuses_bind (refuses_mergedFrom _ 0) fun _ _ => refuses_ok _

theorem refuses_labelParts (names : Dictionary Nat (Option String)) :
    ∀ (part before : Nat) (ps : List String), RefusedFor OfMode (labelParts names part before ps)
  | _, _, [] => refuses_ok _
  | part, before, p :: ps => by
      refine refuses_bind (refuses_badPattern _) fun inner _ => ?_
      exact refuses_bind (refuses_labelParts names _ _ ps) fun labels _ => refuses_ok _

theorem refuses_joinDelimiter (pattern : Option Source) (scope : Option Scope) (key : String)
    (flags : List (String × Option Bool)) : RefusedFor OfMode (joinDelimiter pattern scope key flags) := by
  unfold joinDelimiter
  split
  · split
    · exact refuses_error ⟨⟨rfl, fun _ h => by cases h⟩, fun _ h => by cases h⟩
    · exact refuses_bind (refuses_labelParts _ _ _ _) fun labels _ => refuses_ok _
    · exact refuses_error ⟨⟨rfl, fun _ h => by cases h⟩, fun _ h => by cases h⟩
  · split
    · exact refuses_ok _
    · exact refuses_ok _

/-- A mode that cannot be written out says something that goes ill together. -/
theorem refuses_prepare (extensions : List Extension) (place : Identity) (parent : Option Mode)
    (raw : Mode) : RefusedFor OfMode (prepare extensions place parent raw) := by
  have hmatch : ∀ m, RefusedFor OfMode (spellMatch m) := by
    intro m
    unfold spellMatch
    split
    · split
      · exact refuses_error ⟨⟨rfl, fun _ h => by cases h⟩, fun _ h => by cases h⟩
      · exact refuses_ok _
    · exact refuses_ok _
  have hbefore : ∀ m, RefusedFor OfMode (spellBefore place m) := by
    intro m
    unfold spellBefore
    split
    · split
      · exact refuses_error ⟨⟨rfl, fun _ h => by cases h⟩, fun _ h => by cases h⟩
      · exact refuses_ok _
    · exact refuses_ok _
  refine refuses_bind (hmatch _) fun m _ => refuses_bind (hbefore m) fun m' _ => ?_
  refine refuses_bind (refuses_joinDelimiter _ _ _ _) fun _ _ => ?_
  exact refuses_bind (refuses_joinDelimiter _ _ _ _) fun _ _ => refuses_ok _

theorem refuses_compileKeywords (folded : Bool) (k : Keywords) :
    RefusedFor OfMode (compileKeywords folded k) := by
  have hdeclare : ∀ (ds : List (String × String)) (entries : Dictionary String Keyword.Entry),
      RefusedFor OfMode (Keyword.Table.declareAll folded entries ds) := by
    intro ds
    induction ds with
    | nil => exact fun entries => refuses_ok entries
    | cons d ds ih =>
      intro entries
      refine refuses_bind (refuses_bind ?_ fun _ _ => refuses_ok _) fun entries' _ => ih entries'
      unfold Keyword.relevance
      split
      · split
        · exact refuses_ok _
        · exact refuses_error ⟨⟨rfl, fun _ h => by cases h⟩, fun _ h => by cases h⟩
      · exact refuses_ok _
  refine refuses_bind (refuses_bind (hdeclare _ _) fun _ _ => refuses_ok _) fun table _ => ?_
  exact refuses_bind (refuses_badPattern _) fun regex _ => refuses_ok _

theorem refuses_compileParts (language : Language) (parent : Option Parent) (key : Option Key)
    (raw : Mode) : RefusedFor OfMode (compileParts language parent key raw) := by
  have hpattern : ∀ pattern, RefusedFor OfMode (compilePattern pattern language.caseInsensitive) :=
    fun pattern => refuses_badPattern _
  have hdelimiters : ∀ m, RefusedFor OfMode (compileDelimiters language.caseInsensitive m parent) := by
    intro m
    unfold compileDelimiters
    split
    · exact refuses_ok _
    · refine refuses_bind (hpattern _) fun _ _ => ?_
      exact refuses_bind (refuses_option hpattern _) fun _ _ => refuses_ok _
  refine refuses_bind (refuses_prepare _ _ _ _) fun prepared _ => ?_
  refine refuses_bind (hdelimiters _) fun delimiters _ => ?_
  have hkeywords := refuses_option (refuses_compileKeywords language.caseInsensitive)
    prepared.mode.keywords
  simp only
  split
  · refine refuses_bind (hpattern _) fun _ _ => ?_
    exact refuses_bind hkeywords fun _ _ => refuses_ok _
  · exact refuses_bind hkeywords fun _ _ => refuses_ok _

theorem refuses_expandVariants (m : Shared Mode) (variants : List Mode) :
    RefusedFor OfMode (expandVariants m variants) := by
  refine refuses_mapM (fun (variant, i) => ?_) _
  simp only
  split
  · exact refuses_error ⟨⟨rfl, fun _ h => by cases h⟩, fun _ h => by cases h⟩
  · exact refuses_ok _

/-! ## 2. Places -/

/-- **A mode whose rules go with the patterns that are kept**: the one that is kept for the mode is
    that of its beginning, and the rules are the beginnings of what it contains, by the patterns that
    are kept for these, then its end, then what it forbids. -/
structure Laid (b : Building) (id : Nat) (m : ArenaMode) : Prop where
  begins : b.begins[id]? = some m.beginSource
  contains : AllBelow m.contains b.slots.size
  starts : ∀ next, m.starts = some next → next < b.slots.size
  rules : m.rules.rules =
    rulesOf (m.contains.map fun c => (c, b.begins.getD c "")) m.terminator m.illegal

/-- **Every place has a pattern, and every place that is filled has a mode that goes with the patterns**;
    modes that are known have a place. -/
structure WellLaid (b : Building) : Prop where
  size : b.begins.size = b.slots.size
  memo : ∀ e ∈ b.memo, e.2 < b.slots.size
  slots : ∀ (id : Nat) (m : ArenaMode), b.slots[id]? = some (some m) → Laid b id m

/-- **What was there stays as it was**, gaps and patterns included, and every new place is filled. -/
structure Extends (b b' : Building) : Prop where
  size_le : b.slots.size ≤ b'.slots.size
  begins : ∀ i, i < b.slots.size → b'.begins[i]? = b.begins[i]?
  slots : ∀ i, i < b.slots.size → b'.slots[i]? = b.slots[i]?
  filled : ∀ i, b.slots.size ≤ i → i < b'.slots.size → ∃ m, b'.slots[i]? = some (some m)

theorem Extends.refl (b : Building) : Extends b b :=
  ⟨Nat.le_refl _, fun _ _ => rfl, fun _ _ => rfl, fun _ h h' => absurd h' (Nat.not_lt_of_le h)⟩

theorem Extends.trans (h : Extends b b') (h' : Extends b' b'') : Extends b b'' where
  size_le := Nat.le_trans h.size_le h'.size_le
  begins := fun i hi => (h'.begins i (Nat.lt_of_lt_of_le hi h.size_le)).trans (h.begins i hi)
  slots := fun i hi => (h'.slots i (Nat.lt_of_lt_of_le hi h.size_le)).trans (h.slots i hi)
  filled := fun i hi hi' => by
    rcases Nat.lt_or_ge i b'.slots.size with hlt | hge
    · obtain ⟨m, hm⟩ := h.filled i hi hlt
      exact ⟨m, (h'.slots i hlt).trans hm⟩
    · exact h'.filled i hge hi'

/-- The patterns that rules are made of stay as they are. -/
theorem map_begins_congr {ids : List Nat} {n : Nat} (hids : AllBelow ids n)
    (hb : ∀ i, i < n → b'.begins[i]? = b.begins[i]?) :
    ids.map (fun c => (c, b'.begins.getD c "")) = ids.map fun c => (c, b.begins.getD c "") := by
  refine List.map_congr_left fun c hc => ?_
  rw [Array.getD_eq_getD_getElem?, Array.getD_eq_getD_getElem?, hb c (hids c hc)]

/-- A mode goes with the patterns when more of them are kept. -/
theorem Laid.mono {id : Nat} {m : ArenaMode} (h : Laid b id m) (hid : id < b.slots.size)
    (hsize : b.slots.size ≤ b'.slots.size)
    (hb : ∀ i, i < b.slots.size → b'.begins[i]? = b.begins[i]?) : Laid b' id m where
  begins := (hb id hid).trans h.begins
  contains := h.contains.mono hsize
  starts := fun next hnext => Nat.lt_of_lt_of_le (h.starts next hnext) hsize
  rules := by rw [map_begins_congr h.contains hb, h.rules]

/-! ## 3. Steps of the compilation -/

/-- **A step of the compilation keeps everything well laid**, extends what there is, and answers as `P`
    says; it fails only for what the grammar says. -/
def Lays (b : Building) (x : Build α) (P : α → Building → Prop) : Prop :=
  WellLaid b → (∀ a b', x.run b = .ok (a, b') → WellLaid b' ∧ Extends b b' ∧ P a b') ∧
    Refuses (x.run b)

variable {x : Build α} {f : α → Build β} {P : α → Building → Prop} {Q : β → Building → Prop}

theorem lays_bind (hx : Lays b x P) (hf : ∀ a b', Extends b b' → P a b' → Lays b' (f a) Q) :
    Lays b (x >>= f) Q := by
  intro hb
  obtain ⟨hok, herror⟩ := hx hb
  rw [StateT.run_bind]
  refine ⟨fun c b'' hrun => ?_, refuses_bind herror fun (a, b1) h => ?_⟩
  · cases h : x.run b with
    | error e =>
      rw [h] at hrun
      cases hrun
    | ok y =>
      obtain ⟨a, b1⟩ := y
      rw [h] at hrun
      obtain ⟨hb1, hext, hp⟩ := hok a b1 h
      obtain ⟨hb2, hext', hq⟩ := (hf a b1 hext hp hb1).1 c b'' hrun
      exact ⟨hb2, hext.trans hext', hq⟩
  · obtain ⟨hb1, hext, hp⟩ := hok a b1 h
    exact (hf a b1 hext hp hb1).2

theorem lays_pure {a : α} (h : P a b) : Lays b (pure a : Build α) P := by
  refine fun hb => ⟨fun a' b' hrun => ?_, refuses_ok _⟩
  cases hrun
  exact ⟨hb, .refl b, h⟩

theorem lays_throw {cause : Cause} (h : OfGrammar cause) : Lays b (throw cause : Build α) P :=
  fun _ => ⟨fun a' b' hrun => (by cases hrun), refuses_error h⟩

theorem lays_lift {y : Except Cause α} (h : RefusedFor OfMode y) :
    Lays b (liftM y : Build α) fun a b' => y = .ok a ∧ b' = b := by
  intro hb
  cases y with
  | error e => exact ⟨fun a' b' hrun => (by cases hrun), refuses_error (h e rfl).toOfGrammar⟩
  | ok a =>
    refine ⟨fun a' b' hrun => ?_, refuses_ok _⟩
    cases hrun
    exact ⟨hb, .refl b, rfl, rfl⟩

theorem lays_get : Lays b (get : Build Building) fun a b' => a = b ∧ b' = b ∧ WellLaid b := by
  refine fun hb => ⟨fun a b' hrun => ?_, refuses_ok _⟩
  cases hrun
  exact ⟨hb, .refl b, rfl, rfl, hb⟩

theorem lays_mono {P' : α → Building → Prop} (hx : Lays b x P)
    (hP : ∀ a b', Extends b b' → P a b' → P' a b') : Lays b x P' := by
  intro hb
  obtain ⟨hok, herror⟩ := hx hb
  refine ⟨fun a b' hrun => ?_, herror⟩
  obtain ⟨hb', hext, hp⟩ := hok a b' hrun
  exact ⟨hb', hext, hP a b' hext hp⟩

/-! ## 4. Modes inside modes -/

section Inner

variable {compile : Compiler} {parent : Option Parent}

/-- That a compiler lays modes, and answers the number of a place. -/
def LaysModes (compile : Compiler) : Prop :=
  ∀ raw parent key b, Lays b (compile raw parent key) fun id b' => id < b'.slots.size

theorem lays_compileShared (hc : LaysModes compile) (m : Shared Mode) :
    Lays b (compileShared compile m parent) fun id b' => id < b'.slots.size := by
  unfold compileShared
  refine lays_bind lays_get fun b1 b2 _ h => ?_
  obtain ⟨rfl, rfl, hb⟩ := h
  split
  · rename_i id hid
    obtain ⟨l1, l2, heq, _⟩ := List.lookup_eq_some_iff.mp hid
    have hmem := hb.memo
    rw [heq] at hmem
    exact lays_pure (hmem _ (List.mem_append_right _ List.mem_cons_self))
  · exact hc _ _ _ _

theorem lays_compileAll (hc : LaysModes compile) (ms : List (Shared Mode)) :
    Lays b (compileAll compile parent ms) fun ids b' => AllBelow ids b'.slots.size := by
  induction ms generalizing b with
  | nil => exact lays_pure fun id hid => by cases hid
  | cons m ms ih =>
    refine lays_bind (lays_compileShared hc m) fun id b1 _ hid => ?_
    refine lays_bind (lays_mono ih fun ids b2 hext hids =>
      (show AllBelow (id :: ids) b2.slots.size from
        List.forall_mem_cons.mpr ⟨Nat.lt_of_lt_of_le hid hext.size_le, hids⟩)) ?_
    exact fun ids b2 _ h => lays_pure h

theorem lays_compileInner (hc : LaysModes compile) (parent : Parent) (m : Shared Mode) :
    Lays b (compileInner compile parent m) fun ids b' => AllBelow ids b'.slots.size := by
  unfold compileInner
  split
  · exact lays_compileAll hc _
  · refine lays_bind (lays_lift (refuses_expandVariants m _)) fun ms b1 _ _ => ?_
    exact lays_compileAll hc ms

theorem lays_compileContents (hc : LaysModes compile)
    (repository : Dictionary String (Shared Mode)) {parent : Parent} (cs : List (Contained Mode))
    (hp : parent.id < b.slots.size) :
    Lays b (compileContents compile repository parent cs)
      fun ids b' => AllBelow ids b'.slots.size := by
  have happend : ∀ {b1 : Building} {ids : List Nat} {rest : Build (List Nat)},
      AllBelow ids b1.slots.size → Lays b1 rest (fun ids b' => AllBelow ids b'.slots.size) →
      Lays b1 (do return ids ++ (← rest)) fun ids b' => AllBelow ids b'.slots.size := by
    intro b1 ids rest hids hrest
    refine lays_bind (lays_mono hrest fun ids' b2 hext h =>
      (show AllBelow (ids ++ ids') b2.slots.size from
        allBelow_append (hids.mono hext.size_le) h)) ?_
    exact fun ids' b2 _ h => lays_pure h
  induction cs generalizing b with
  | nil => exact lays_pure fun id hid => by cases hid
  | cons c cs ih =>
    cases c with
    | self =>
      have hid : AllBelow [parent.id] b.slots.size := by
        intro id h
        rw [List.mem_singleton.mp h]
        exact hp
      exact happend hid (ih hp)
    | named name =>
      unfold compileContents
      split
      · exact lays_throw ⟨rfl, fun _ h => by cases h⟩
      · refine lays_bind (lays_compileInner hc parent _) fun ids b1 hext hids => ?_
        exact happend hids (ih (Nat.lt_of_lt_of_le hp hext.size_le))
    | mode m =>
      refine lays_bind (lays_compileInner hc parent m) fun ids b1 hext hids => ?_
      exact happend hids (ih (Nat.lt_of_lt_of_le hp hext.size_le))

theorem lays_compileStarts (hc : LaysModes compile) (m : Option (Shared Mode)) :
    Lays b (compileStarts compile parent m) fun starts b' =>
      ∀ next, starts = some next → next < b'.slots.size := by
  cases m with
  | none => exact lays_pure fun next h => by cases h
  | some m =>
    refine lays_bind (lays_compileShared hc m) fun id b1 _ hid => lays_pure fun next h => ?_
    cases h
    exact hid

end Inner

/-! ## 5. Modes -/

/-- What a mode comes to once a place has been kept for it. -/
def compileInside (language : Language) (compile : Compiler) (p : Parts) (parent : Option Parent)
    (id : Nat) : Build ArenaMode := do
  let contains ← compileContents compile language.repository
    ⟨id, p.prepared.mode, p.delimiters.terminator⟩ (p.prepared.mode.contains.getD [])
  let starts ← compileStarts compile parent p.prepared.mode.starts
  let begins := (← get).begins
  let rules ← RuleSet.make
    (rulesOf (contains.map fun i => (i, begins.getD i "")) p.delimiters.terminator p.illegal)
    language.caseInsensitive
  return p.assemble contains starts rules

/-- A mode is compiled by keeping a place, compiling what is inside, and filling the place. -/
theorem compileMode_succ (language : Language) (room : Nat) (raw : Mode) (parent : Option Parent)
    (key : Option Key) : compileMode language (room + 1) raw parent key = (do
      let p ← compileParts language parent key raw
      let id ← reserve p.delimiters.beginSource key
      let m ← compileInside language (compileMode language room) p parent id
      fill id m
      return id) := by
  unfold compileInside
  simp only [compileMode, bind_assoc, pure_bind]

/-- What is inside a mode goes with the patterns that are kept, once there is a place for it. -/
theorem lays_compileInside (language : Language) {compile : Compiler} (hc : LaysModes compile)
    (p : Parts) (parent : Option Parent) {id : Nat} (hid : id < b.slots.size)
    (hbegins : b.begins[id]? = some p.delimiters.beginSource) :
    Lays b (compileInside language compile p parent id) fun m b' => Laid b' id m ∧
      m.terminator = p.delimiters.terminator ∧ m.endRegex = p.delimiters.endRegex := by
  refine lays_bind (lays_compileContents hc language.repository _ hid)
    fun contains b1 hext1 hcontains => ?_
  refine lays_bind (lays_compileStarts hc _) fun starts b2 hext2 hstarts => ?_
  refine lays_bind lays_get fun b3 b4 _ h => ?_
  obtain ⟨rfl, rfl, _⟩ := h
  refine lays_bind (lays_lift (refuses_make _ _)) fun rules b5 _ h => ?_
  obtain ⟨hrules, rfl⟩ := h
  refine lays_pure ⟨?_, rfl, rfl⟩
  exact {
    begins := ((hext1.trans hext2).begins id hid).trans hbegins
    contains := hcontains.mono hext2.size_le
    starts := hstarts
    rules := (RuleSet.make_eq_ok hrules).1 }

/-- The root has no end. -/
theorem endless_of_root {key : Option Key} {raw : Mode} {p : Parts}
    (h : compileParts language none key raw = .ok p) :
    p.delimiters.terminator = "" ∧ p.delimiters.endRegex = none := by
  have hdelimiters := delimiters_of_compileParts h
  cases hd : p.delimiters with
  | mk beginSource endSource endRegex terminator =>
    rw [hd] at hdelimiters
    cases hdelimiters
    exact ⟨rfl, rfl⟩

/-- What a place that is kept and then filled comes to: nothing that was there has changed. -/
theorem extends_of_filled {id : Nat} {m : ArenaMode} {begins : String} {memo : List (Key × Nat)}
    (hb : WellLaid b) (hid : id = b.slots.size)
    (hext : Extends ⟨b.slots.push none, b.begins.push begins, memo⟩ b') :
    Extends b { b' with slots := b'.slots.setIfInBounds id (some m) } where
  size_le := by
    have := hext.size_le
    simp only [Array.size_push, Array.size_setIfInBounds] at this ⊢
    omega
  begins := fun i hi => by
    refine (hext.begins i ?_).trans ?_
    · simp only [Array.size_push]
      omega
    · show (b.begins.push begins)[i]? = _
      rw [Array.getElem?_push_lt (by rw [hb.size]; exact hi), Array.getElem?_eq_getElem]
  slots := fun i hi => by
    show (b'.slots.setIfInBounds id (some m))[i]? = _
    rw [Array.getElem?_setIfInBounds_ne (by omega)]
    refine (hext.slots i ?_).trans ?_
    · simp only [Array.size_push]
      omega
    · show (b.slots.push none)[i]? = _
      rw [Array.getElem?_push_lt hi, Array.getElem?_eq_getElem]
  filled := fun i hi hi' => by
    show ∃ m', (b'.slots.setIfInBounds id (some m))[i]? = some (some m')
    have hlt : i < b'.slots.size := by simpa using hi'
    rcases Nat.eq_or_lt_of_le hi with heq | hgt
    · refine ⟨m, ?_⟩
      rw [hid, heq, Array.getElem?_setIfInBounds_self_of_lt hlt]
    · rw [Array.getElem?_setIfInBounds_ne (by omega)]
      refine hext.filled i ?_ hlt
      simp only [Array.size_push]
      omega

/-- A place that is kept is known, but nothing is laid in it. -/
theorem wellLaid_kept (hb : WellLaid b) (begins : String) (key : Option Key) :
    WellLaid ⟨b.slots.push none, b.begins.push begins,
      (key.map (·, b.slots.size)).toList ++ b.memo⟩ where
  size := by
    show (b.begins.push _).size = (b.slots.push none).size
    rw [Array.size_push, Array.size_push, hb.size]
  memo := fun e he => by
    show e.2 < (b.slots.push none).size
    rw [Array.size_push]
    rcases List.mem_append.mp he with he | he
    · obtain ⟨k, _, rfl⟩ := Option.map_eq_some_iff.mp (Option.mem_toList.mp he)
      exact Nat.lt_succ_self _
    · exact Nat.lt_succ_of_lt (hb.memo e he)
  slots := fun id m hm => by
    have hm' : (b.slots.push none)[id]? = some (some m) := hm
    rw [Array.getElem?_push] at hm'
    split at hm'
    · cases hm'
    · have hid : id < b.slots.size := (Array.getElem?_eq_some_iff.mp hm').1
      refine (hb.slots id m hm').mono hid ?_ fun i hi => ?_
      · show b.slots.size ≤ (b.slots.push none).size
        rw [Array.size_push]
        exact Nat.le_succ _
      · show (b.begins.push begins)[i]? = _
        rw [Array.getElem?_push_lt (by rw [hb.size]; exact hi), Array.getElem?_eq_getElem]

/-- A place that is filled with what is laid there. -/
theorem wellLaid_filled {id : Nat} {m : ArenaMode} (hb : WellLaid b) (hlaid : Laid b id m)
    (hlt : id < b.slots.size) : WellLaid { b with slots := b.slots.setIfInBounds id (some m) } := by
  have hsize : (b.slots.setIfInBounds id (some m)).size = b.slots.size :=
    Array.size_setIfInBounds
  have hmono : ∀ {id' m'}, Laid b id' m' → id' < b.slots.size →
      Laid { b with slots := b.slots.setIfInBounds id (some m) } id' m' :=
    fun h hid => h.mono hid (Nat.le_of_eq hsize.symm) fun _ _ => rfl
  refine ⟨hb.size.trans hsize.symm, fun e he => ?_, fun id' m' hm' => ?_⟩
  · rw [hsize]
    exact hb.memo e he
  · by_cases hid : id = id'
    · subst hid
      cases (Array.getElem?_setIfInBounds_self_of_lt hlt).symm.trans hm'
      exact hmono hlaid hlt
    · have hm : b.slots[id']? = some (some m') := by
        rw [← hm', Array.getElem?_setIfInBounds_ne hid]
      exact hmono (hb.slots id' m' hm) (Array.getElem?_eq_some_iff.mp hm).1

/-- **A mode with all that it contains is laid well**: it gets the next place, and when it is compiled
    every new place is filled. -/
theorem lays_compileMode (language : Language) (room : Nat) (raw : Mode) (parent : Option Parent)
    (key : Option Key) (b : Building) : Lays b (compileMode language room raw parent key)
      fun id b' => id = b.slots.size ∧ id < b'.slots.size ∧ (parent = none →
        ∃ m, b'.slots[id]? = some (some m) ∧ m.terminator = "" ∧ m.endRegex = none) := by
  induction room generalizing raw parent key b with
  | zero => exact lays_throw ⟨rfl, fun _ h => by cases h⟩
  | succ room ih =>
    have hmodes : LaysModes (compileMode language room) := fun raw parent key b =>
      lays_mono (ih raw parent key b) fun id b' _ h => h.2.1
    rw [compileMode_succ]
    refine lays_bind (lays_lift (refuses_compileParts language parent key raw)) fun p b1 _ h => ?_
    obtain ⟨hparts, rfl⟩ := h
    intro hb
    -- A place is kept for the mode before what it contains is compiled, and filled behind that.
    let kept : Building := ⟨b1.slots.push none, b1.begins.push p.delimiters.beginSource,
      (key.map (·, b1.slots.size)).toList ++ b1.memo⟩
    have hslots : kept.slots.size = b1.slots.size + 1 := Array.size_push ..
    have hbegins : kept.begins[b1.slots.size]? = some p.delimiters.beginSource := by
      show (b1.begins.push p.delimiters.beginSource)[b1.slots.size]? = _
      rw [← hb.size, Array.getElem?_push_size]
    obtain ⟨hok, herror⟩ := lays_compileInside language hmodes p parent (b := kept) (by omega)
      hbegins (wellLaid_kept hb p.delimiters.beginSource key)
    have hrun : ∀ k : Nat → Build Nat,
        (reserve p.delimiters.beginSource key >>= k).run b1 = (k b1.slots.size).run kept :=
      fun k => rfl
    rw [hrun, StateT.run_bind]
    refine ⟨fun id b' hresult => ?_, refuses_bind herror fun (m, b2) _ => refuses_ok _⟩
    cases hinside : (compileInside language (compileMode language room) p parent
        b1.slots.size).run kept with
    | error e =>
      rw [hinside] at hresult
      cases hresult
    | ok y =>
      obtain ⟨m, b2⟩ := y
      rw [hinside] at hresult
      cases hresult
      obtain ⟨hb2, hext, hlaid, hterminator, hend⟩ := hok m b2 hinside
      have hlt : b1.slots.size < b2.slots.size := by
        have := hext.size_le
        omega
      refine ⟨wellLaid_filled hb2 hlaid hlt, extends_of_filled hb rfl hext, rfl, ?_, ?_⟩
      · rw [show (b2.slots.setIfInBounds b1.slots.size (some m)).size = b2.slots.size from
          Array.size_setIfInBounds]
        exact hlt
      · intro hnone
        subst hnone
        obtain ⟨hnoTerminator, hnoEnd⟩ := endless_of_root hparts
        exact ⟨m, Array.getElem?_setIfInBounds_self_of_lt hlt, hterminator.trans hnoTerminator,
          hend.trans hnoEnd⟩

/-! ## 6. Languages -/

/-- **A well formed arena**: the root comes first and has no end; every number in a mode is that of a
    mode; and the rules of a mode are the beginnings of what it contains, in order and by the patterns
    that these modes have in the arena, then its end, if it has one, and what it forbids, if it forbids
    anything. -/
structure WellFormed (arena : Arena) : Prop where
  root : arena.root = 0
  size_pos : 0 < arena.modes.size
  contains : ∀ id, id < arena.modes.size → ∀ c ∈ (arena.mode id).contains, c < arena.modes.size
  starts : ∀ id, id < arena.modes.size → ∀ next, (arena.mode id).starts = some next →
    next < arena.modes.size
  begins : ∀ id, id < arena.modes.size → ∀ r ∈ (arena.mode id).rules.rules, ∀ c,
    r.kind = .begins c → c < arena.modes.size
  rules : ∀ id, id < arena.modes.size → (arena.mode id).rules.rules =
    (arena.mode id).contains.map (fun c => ⟨.begins c, (arena.mode c).beginSource⟩)
      ++ (if (arena.mode id).terminator = "" then [] else [⟨.ends, (arena.mode id).terminator⟩])
      ++ (arena.mode id).illegal.toList.map (⟨.illegal, ·⟩)
  endless : (arena.mode arena.root).terminator = "" ∧ (arena.mode arena.root).endRegex = none ∧
    ∀ r ∈ (arena.mode arena.root).rules.rules, r.kind ≠ .ends

/-- Where the compilation of a language begins. -/
def Building.start : Building := ⟨#[], #[], []⟩

theorem wellLaid_start : WellLaid .start where
  size := rfl
  memo := fun e he => by cases he
  slots := fun id m hm => by simp [Building.start] at hm

/-- Where no place has a gap a compilation can be finished. -/
theorem finish_of_filled {slots : Array (Option ArenaMode)}
    (h : ∀ i, i < slots.size → ∃ m, slots[i]? = some (some m)) :
    ∃ modes, finish slots = .ok modes := by
  have hmap : ∀ os : List (Option ArenaMode), (∀ o ∈ os, ∃ m, o = some m) →
      ∃ ms, os.mapM id = some ms := by
    intro os hos
    induction os with
    | nil => exact ⟨[], rfl⟩
    | cons o os ih =>
      obtain ⟨m, rfl⟩ := hos o List.mem_cons_self
      obtain ⟨ms, hms⟩ := ih fun o' ho' => hos o' (List.mem_cons_of_mem _ ho')
      refine ⟨m :: ms, ?_⟩
      rw [List.mapM_cons, hms]
      rfl
  obtain ⟨ms, hms⟩ := hmap slots.toList fun o ho => by
    obtain ⟨i, hi⟩ := List.mem_iff_getElem?.mp ho
    rw [Array.getElem?_toList] at hi
    obtain ⟨m, hm⟩ := h i (Array.getElem?_eq_some_iff.mp hi).1
    exact ⟨m, Option.some.inj (hi.symm.trans hm)⟩
  exact ⟨ms.toArray, by rw [finish, hms]⟩

/-- What the compilation of all modes of a language comes to. -/
theorem laid_of_run {root : Nat} (hrun : (compileMode language maxNesting language.mode none none).run
    .start = .ok (root, b)) : WellLaid b ∧ root = 0 ∧
      (∀ i, i < b.slots.size → ∃ m, b.slots[i]? = some (some m)) ∧
      ∃ m, b.slots[root]? = some (some m) ∧ m.terminator = "" ∧ m.endRegex = none := by
  obtain ⟨hb, hext, hroot, _, hendless⟩ :=
    (lays_compileMode language maxNesting language.mode none none .start wellLaid_start).1 root b hrun
  exact ⟨hb, hroot, fun i hi => hext.filled i (Nat.zero_le i) hi, hendless rfl⟩

variable {name : String} {arena : Arena}

/-- How a language is compiled. -/
theorem compileModes_eq (name : String) (language : Language) :
    compileModes name language =
      if language.mode.containsSelf then .error (.selfAtTopLevel name)
      else (compileMode language maxNesting language.mode none none).run .start >>= fun y =>
        finish y.2.slots >>= fun modes => .ok (y.1, modes) := by
  unfold compileModes
  split <;> rfl

/-- A language is refused only for what it says. -/
theorem ofGrammar_of_compileModes (name : String) (language : Language) :
    Refuses (compileModes name language) := by
  rw [compileModes_eq]
  split
  · exact refuses_error ⟨rfl, fun _ h => by cases h⟩
  · refine refuses_bind (lays_compileMode language maxNesting language.mode none none .start
      wellLaid_start).2 fun (root, b) hrun => ?_
    obtain ⟨modes, hmodes⟩ := finish_of_filled (laid_of_run hrun).2.2.1
    rw [hmodes]
    exact refuses_ok _

/-- A language is never refused for a gap. -/
theorem refuses_compileModes (name : String) (language : Language) (c : Cause)
    (hc : compileModes name language = .error c) (message : String) :
    c ≠ .invalidGrammarData message :=
  (ofGrammar_of_compileModes name language c hc).noGap message

/-- **A language that is not compiled is refused for its grammar**, and the fault is placed at its
    beginning, under the name that it was to be compiled under. -/
theorem fault_of_compileLanguage {f : Fault} (hf : compileLanguage name language = .error f) :
    f.cause.isConfiguration = true ∧ f.position = ⟨0, name⟩ := by
  simp only [compileLanguage, bind, Except.bind] at hf
  split at hf
  · rename_i f' hf'
    cases hf
    cases hmodes : compileModes name language with
    | error c =>
      rw [hmodes] at hf'
      cases hf'
      exact ⟨(ofGrammar_of_compileModes name language c hmodes).configuration, rfl⟩
    | ok z =>
      rw [hmodes] at hf'
      cases hf'
  · cases hf

/-- What a compiled language was made of. -/
theorem exists_laid_of_compileLanguage (h : compileLanguage name language = .ok arena) :
    ∃ b, (compileMode language maxNesting language.mode none none).run .start =
      .ok (arena.root, b) ∧ b.slots.toList = arena.modes.toList.map some := by
  simp only [compileLanguage, bind, Except.bind] at h
  split at h
  · cases h
  · rename_i y hy
    cases h
    cases hmodes : compileModes name language with
    | error e =>
      rw [hmodes] at hy
      cases hy
    | ok z =>
      rw [hmodes] at hy
      cases hy
      rw [compileModes_eq] at hmodes
      split at hmodes
      · cases hmodes
      · simp only [bind, Except.bind] at hmodes
        split at hmodes
        · cases hmodes
        · rename_i z hrun
          split at hmodes
          · cases hmodes
          · rename_i modes hfinish
            cases hmodes
            exact ⟨z.2, hrun, toList_of_finish hfinish⟩

/-- **What is compiled is well formed.** -/
theorem wellFormed_of_compileLanguage (h : compileLanguage name language = .ok arena) :
    WellFormed arena := by
  obtain ⟨b, hrun, hslots⟩ := exists_laid_of_compileLanguage h
  obtain ⟨hb, hroot, hfilled, m, hm, hmendless⟩ := laid_of_run hrun
  have hsize : b.slots.size = arena.modes.size := by
    rw [← Array.length_toList, ← Array.length_toList, hslots, List.length_map]
  have hmode : ∀ id, id < arena.modes.size → b.slots[id]? = some (some (arena.mode id)) := by
    intro id hid
    rw [← Array.getElem?_toList, hslots, List.getElem?_map, Array.getElem?_toList, Arena.mode,
      Array.getD_eq_getD_getElem?, Array.getElem?_eq_getElem hid]
    rfl
  have hlaid : ∀ id, id < arena.modes.size → Laid b id (arena.mode id) :=
    fun id hid => hb.slots id _ (hmode id hid)
  have hrootlt : arena.root < arena.modes.size := by
    rw [← hsize]
    exact (Array.getElem?_eq_some_iff.mp hm).1
  have hcontains : ∀ id, id < arena.modes.size → ∀ c ∈ (arena.mode id).contains,
      c < arena.modes.size := fun id hid c hc => hsize ▸ (hlaid id hid).contains c hc
  have hrules : ∀ id, id < arena.modes.size → (arena.mode id).rules.rules =
      rulesOf ((arena.mode id).contains.map fun c => (c, (arena.mode c).beginSource))
        (arena.mode id).terminator (arena.mode id).illegal := by
    intro id hid
    rw [(hlaid id hid).rules]
    congr 1
    refine List.map_congr_left fun c hc => ?_
    rw [Array.getD_eq_getD_getElem?, (hlaid c (hcontains id hid c hc)).begins]
    rfl
  have hendless : (arena.mode arena.root).terminator = "" ∧
      (arena.mode arena.root).endRegex = none := by
    cases (hmode arena.root hrootlt).symm.trans hm
    exact hmendless
  refine ⟨hroot, Nat.lt_of_le_of_lt (Nat.zero_le _) hrootlt, hcontains,
    fun id hid next hnext => hsize ▸ (hlaid id hid).starts next hnext, fun id hid r hr c hk => ?_,
    fun id hid => ?_, hendless.1, hendless.2, fun r hr hk => ?_⟩
  · rw [hrules id hid] at hr
    exact hcontains id hid c (mem_contains_of_begins hr hk)
  · rw [hrules id hid]
    simp only [rulesOf, List.map_map, beq_iff_eq]
    rfl
  · rw [hrules _ hrootlt, hendless.1] at hr
    rcases List.mem_append.mp hr with hr | hr
    · rcases List.mem_append.mp hr with hr | hr
      · obtain ⟨_, _, rfl⟩ := List.mem_map.mp hr
        cases hk
      · cases hr
    · obtain ⟨_, _, rfl⟩ := List.mem_map.mp hr
      cases hk

/-- **Arenas are well formed.** Whatever the repository, the sharing and the extensions of a language,
    its compilation fills every place that it keeps, so that it never fails for a gap; and the arena
    that it comes to is well formed. -/
theorem compiled_arena_is_well_formed (name : String) (language : Language) :
    (∀ root b, (compileMode language maxNesting language.mode none none).run .start = .ok (root, b) →
      ∀ i, i < b.slots.size → ∃ m, b.slots[i]? = some (some m)) ∧
    (∀ message position,
      compileLanguage name language ≠ .error ⟨.invalidGrammarData message, position⟩) ∧
    ∀ arena, compileLanguage name language = .ok arena → WellFormed arena := by
  refine ⟨fun root b hrun => (laid_of_run hrun).2.2.1, fun message position h => ?_,
    fun arena h => wellFormed_of_compileLanguage h⟩
  simp only [compileLanguage, bind, Except.bind] at h
  split at h
  · rename_i f hf
    cases h
    cases hmodes : compileModes name language with
    | error c =>
      rw [hmodes] at hf
      cases hf
      exact refuses_compileModes name language _ hmodes message rfl
    | ok z =>
      rw [hmodes] at hf
      cases hf
  · cases h

/-- Parentheses inside one another: the repository has one mode, which contains itself in two ways. -/
def nestedLanguage : Language where
  repository := Dictionary.empty.insert "paren" ⟨[("paren", 0)], {
    beginPattern := some (.single "\\(")
    endPattern := some (.single "\\)")
    illegal := some (.single ";")
    contains := some [.named "paren", .self] }⟩
  mode := { contains := some [.named "paren"] }

/-- Parentheses have the rules that a mode with itself inside is to have. -/
theorem nested_arena_is_well_formed : ∃ arena, compileLanguage "nested" nestedLanguage = .ok arena ∧
    WellFormed arena ∧ (arena.mode 1).rules.rules =
      [⟨.begins 1, "\\("⟩, ⟨.begins 1, "\\("⟩, ⟨.ends, "\\)"⟩, ⟨.illegal, ";"⟩] := by
  have hcompiles : ((compileLanguage "nested" nestedLanguage).toOption.any fun arena =>
      arena.modes.size == 2 && (arena.mode 1).contains == [1, 1] &&
        (arena.mode 1).beginSource == "\\(" && (arena.mode 1).terminator == "\\)" &&
        (arena.mode 1).illegal == some ";") = true := by decide +kernel
  obtain ⟨arena, hc, hcheck⟩ := (Option.any_eq_true _ _).mp hcompiles
  have hok : compileLanguage "nested" nestedLanguage = .ok arena := by
    cases hresult : compileLanguage "nested" nestedLanguage with
    | error f =>
      rw [hresult] at hc
      cases hc
    | ok arena' =>
      rw [hresult] at hc
      cases hc
      rfl
  simp only [Bool.and_eq_true, beq_iff_eq] at hcheck
  obtain ⟨⟨⟨⟨hsize, hcontains⟩, hbegin⟩, hend⟩, hillegal⟩ := hcheck
  have hwell := (compiled_arena_is_well_formed "nested" nestedLanguage).2.2 arena hok
  refine ⟨arena, hok, hwell, ?_⟩
  rw [hwell.rules 1 (by omega), hcontains, hend, hillegal]
  simp [hbegin]

end Highlight.Arena
