import Highlight.Arena.Compilation
import Highlight.Proofs.Arena.Rules

/-!
# What the compiler makes

* `Made` -- a mode as the compiler makes it;
* `Sound` -- what holds of everything that has been compiled so far;
* `Builds` -- that a step of the compilation keeps this up;
* `builds_compileMode` -- every mode, with all that it contains;
* `made_of_mem`, `root_lt_size` -- the modes of a compiled language.
-/

namespace Highlight.Arena

open Highlight.Grammar

variable {language : Language} {α β : Type} {n : Nat} {x : Build α} {f : α → Build β}
  {P : α → Nat → Prop} {Q : β → Nat → Prop}

/-! ## 1. Compiled modes -/

/-- **A mode as the compiler makes it**: it is put together from what a written mode comes to by
    itself, its rules can be merged, and every number in it is that of a mode below `size`. -/
structure Made (language : Language) (size : Nat) (m : ArenaMode) : Prop where
  parts : ∃ parent key raw p, compileParts language parent key raw = .ok p ∧
    m = p.assemble m.contains m.starts m.rules
  rules : ∃ source : Nat → String,
    RuleSet.make (rulesOf (m.contains.map fun i => (i, source i)) m.terminator m.illegal)
      language.caseInsensitive = .ok m.rules
  contains : ∀ id ∈ m.contains, id < size
  starts : ∀ id, m.starts = some id → id < size

theorem Made.mono {size size' : Nat} {m : ArenaMode} (h : Made language size m)
    (hs : size ≤ size') : Made language size' m where
  parts := h.parts
  rules := h.rules
  contains := fun id hid => Nat.lt_of_lt_of_le (h.contains id hid) hs
  starts := fun id hid => Nat.lt_of_lt_of_le (h.starts id hid) hs

/-- A rule set holds the rules it is made of, and all of them in one pattern can be read. -/
theorem RuleSet.make_eq_ok {rules : List Rule} {folded : Bool} {rs : RuleSet}
    (h : RuleSet.make rules folded = .ok rs) :
    rs.rules = rules ∧ rs.folded = folded ∧
      (rules ≠ [] → ∃ merged, rs.mergedFrom 0 = .ok merged) := by
  simp only [RuleSet.make, bind, Except.bind, pure, Except.pure] at h
  cases rules with
  | nil =>
    cases h
    exact ⟨rfl, rfl, fun h => absurd rfl h⟩
  | cons r rules =>
    simp only [List.isEmpty_cons, Bool.false_eq_true, ↓reduceIte] at h
    split at h
    · cases h
    · rename_i merged hmerged
      cases h
      exact ⟨rfl, rfl, fun _ => ⟨merged, hmerged⟩⟩

/-- A rule that stands for the beginning of a mode stands for one that is contained. -/
theorem mem_contains_of_begins {contains : List Nat} {source : Nat → String} {terminator : String}
    {illegal : Option String} {r : Rule} {id : Nat}
    (hr : r ∈ rulesOf (contains.map fun i => (i, source i)) terminator illegal)
    (hk : r.kind = .begins id) : id ∈ contains := by
  unfold rulesOf at hr
  rcases List.mem_append.mp hr with hr | hr
  · rcases List.mem_append.mp hr with hr | hr
    · rw [List.map_map] at hr
      obtain ⟨i, hi, rfl⟩ := List.mem_map.mp hr
      cases hk
      exact hi
    · split at hr
      · cases hr
      · rw [List.mem_singleton.mp hr] at hk
        cases hk
  · obtain ⟨t, _, rfl⟩ := List.mem_map.mp hr
    cases hk

theorem Made.begins {size : Nat} {m : ArenaMode} (h : Made language size m) {r : Rule} {id : Nat}
    (hr : r ∈ m.rules.rules) (hk : r.kind = .begins id) : id < size := by
  obtain ⟨source, hmake⟩ := h.rules
  rw [(RuleSet.make_eq_ok hmake).1] at hr
  exact h.contains id (mem_contains_of_begins hr hk)

/-! ## 2. Steps of the compilation -/

/-- **What holds of everything that has been compiled so far**: modes that are known have a place,
    and places are filled with modes as the compiler makes them. -/
structure Sound (language : Language) (b : Building) : Prop where
  memo : ∀ e ∈ b.memo, e.2 < b.slots.size
  slots : ∀ (i : Nat) (m : ArenaMode), b.slots[i]? = some (some m) → Made language b.slots.size m

/-- A step of the compilation, begun with at least `n` places, keeps everything sound, takes no
    place away, and answers as `P` says. -/
def Builds (language : Language) (n : Nat) (x : Build α) (P : α → Nat → Prop) : Prop :=
  ∀ b a b', n ≤ b.slots.size → Sound language b → x.run b = .ok (a, b') →
    Sound language b' ∧ b.slots.size ≤ b'.slots.size ∧ P a b'.slots.size

theorem builds_bind (hx : Builds language n x P)
    (hf : ∀ a n', n ≤ n' → P a n' → Builds language n' (f a) Q) :
    Builds language n (x >>= f) Q := by
  intro b c b' hn hs hrun
  rw [StateT.run_bind] at hrun
  cases hx' : x.run b with
  | error e =>
    rw [hx'] at hrun
    cases hrun
  | ok y =>
    obtain ⟨a, b1⟩ := y
    rw [hx'] at hrun
    obtain ⟨hs1, hle1, hp⟩ := hx b a b1 hn hs hx'
    obtain ⟨hs2, hle2, hq⟩ :=
      hf a b1.slots.size (Nat.le_trans hn hle1) hp b1 c b' (Nat.le_refl _) hs1 hrun
    exact ⟨hs2, Nat.le_trans hle1 hle2, hq⟩

theorem builds_pure {a : α} (h : ∀ n', n ≤ n' → P a n') :
    Builds language n (pure a : Build α) P := by
  intro b a' b' hn hs hrun
  cases hrun
  exact ⟨hs, Nat.le_refl _, h _ hn⟩

theorem builds_throw {cause : Cause} : Builds language n (throw cause : Build α) P := by
  intro b a b' _ _ hrun
  cases hrun

theorem builds_lift (y : Except Cause α) :
    Builds language n (liftM y : Build α) fun a _ => y = .ok a := by
  intro b a b' _ hs hrun
  cases y with
  | error e => cases hrun
  | ok a' =>
    cases hrun
    exact ⟨hs, Nat.le_refl _, rfl⟩

theorem builds_get :
    Builds language n (get : Build Building) fun b n' => ∀ e ∈ b.memo, e.2 < n' := by
  intro b a b' _ hs hrun
  cases hrun
  exact ⟨hs, Nat.le_refl _, hs.memo⟩

theorem builds_mono {P' : α → Nat → Prop} (hx : Builds language n x P)
    (hP : ∀ a n', n ≤ n' → P a n' → P' a n') : Builds language n x P' := by
  intro b a b' hn hs hrun
  obtain ⟨hs', hle, hp⟩ := hx b a b' hn hs hrun
  exact ⟨hs', hle, hP a _ (Nat.le_trans hn hle) hp⟩

theorem builds_reserve (begins : String) (key : Option Key) :
    Builds language n (reserve begins key) fun id n' => id < n' := by
  intro b id b' _ hs hrun
  cases hrun
  have hsize : (b.slots.push none).size = b.slots.size + 1 := Array.size_push ..
  refine ⟨⟨fun e he => ?_, fun i m hi => ?_⟩, ?_, ?_⟩
  · show e.2 < (b.slots.push none).size
    rw [hsize]
    rcases List.mem_append.mp he with he | he
    · obtain ⟨k, _, rfl⟩ := Option.map_eq_some_iff.mp (Option.mem_toList.mp he)
      exact Nat.lt_succ_self _
    · exact Nat.lt_succ_of_lt (hs.memo e he)
  · show Made language (b.slots.push none).size m
    rw [hsize]
    have hi' : (b.slots.push none)[i]? = some (some m) := hi
    rw [Array.getElem?_push] at hi'
    split at hi'
    · cases hi'
    · exact (hs.slots i m hi').mono (Nat.le_succ _)
  · show b.slots.size ≤ (b.slots.push none).size
    rw [hsize]
    exact Nat.le_succ _
  · show b.slots.size < (b.slots.push none).size
    rw [hsize]
    exact Nat.lt_succ_self _

theorem builds_fill {id : Nat} {m : ArenaMode} (h : Made language n m) :
    Builds language n (fill id m) fun _ _ => True := by
  intro b u b' hn hs hrun
  cases hrun
  have hsize : (b.slots.setIfInBounds id (some m)).size = b.slots.size :=
    Array.size_setIfInBounds
  refine ⟨⟨fun e he => ?_, fun i m' hi => ?_⟩, Nat.le_of_eq hsize.symm, trivial⟩
  · show e.2 < (b.slots.setIfInBounds id (some m)).size
    rw [hsize]
    exact hs.memo e he
  · show Made language (b.slots.setIfInBounds id (some m)).size m'
    rw [hsize]
    have hi' : (b.slots.setIfInBounds id (some m))[i]? = some (some m') := hi
    rw [Array.getElem?_setIfInBounds] at hi'
    split at hi'
    · split at hi'
      · cases hi'
        exact h.mono hn
      · cases hi'
    · exact hs.slots i m' hi'

/-! ## 3. Modes inside modes -/

section Inner

variable {compile : Compiler} {parent : Option Parent}

/-- That a compiler answers the numbers of modes. -/
def Numbers (language : Language) (compile : Compiler) : Prop :=
  ∀ m parent key n, Builds language n (compile m parent key) fun id n' => id < n'

/-- That all numbers of a list are below a bound. -/
def AllBelow (ids : List Nat) (n : Nat) : Prop := ∀ id ∈ ids, id < n

theorem AllBelow.mono {ids : List Nat} {n n' : Nat} (h : AllBelow ids n) (hn : n ≤ n') :
    AllBelow ids n' := fun id hid => Nat.lt_of_lt_of_le (h id hid) hn

theorem allBelow_append {ids ids' : List Nat} {n : Nat} (h : AllBelow ids n)
    (h' : AllBelow ids' n) : AllBelow (ids ++ ids') n := by
  intro id hid
  rcases List.mem_append.mp hid with hid | hid
  · exact h id hid
  · exact h' id hid

theorem builds_compileShared (hc : Numbers language compile) (m : Shared Mode) (n : Nat) :
    Builds language n (compileShared compile m parent) fun id n' => id < n' := by
  unfold compileShared
  refine builds_bind builds_get fun b n1 _ hb => ?_
  split
  · rename_i id hid
    obtain ⟨l1, l2, heq, _⟩ := List.lookup_eq_some_iff.mp hid
    have hlt : id < n1 := by
      rw [heq] at hb
      exact hb _ (List.mem_append_right _ List.mem_cons_self)
    exact builds_pure fun n' hn => Nat.lt_of_lt_of_le hlt hn
  · exact hc _ _ _ _

theorem builds_compileAll (hc : Numbers language compile) (ms : List (Shared Mode)) (n : Nat) :
    Builds language n (compileAll compile parent ms) AllBelow := by
  induction ms generalizing n with
  | nil => exact builds_pure fun n' _ id hid => by cases hid
  | cons m ms ih =>
    refine builds_bind (builds_compileShared hc m n) fun id n1 _ hid => ?_
    refine builds_bind (builds_mono (ih n1) fun ids n2 hn2 hids =>
      (show id < n2 ∧ AllBelow ids n2 from ⟨Nat.lt_of_lt_of_le hid hn2, hids⟩)) ?_
    intro ids n2 _ h
    exact builds_pure fun n' hn =>
      AllBelow.mono (List.forall_mem_cons.mpr h) hn

theorem builds_compileInner (hc : Numbers language compile) (parent : Parent) (m : Shared Mode)
    (n : Nat) : Builds language n (compileInner compile parent m) AllBelow := by
  unfold compileInner
  split
  · exact builds_compileAll hc _ n
  · exact builds_bind (builds_lift _) fun ms n1 _ _ => builds_compileAll hc ms n1

theorem builds_compileContents (hc : Numbers language compile)
    (repository : Dictionary String (Shared Mode)) {parent : Parent} (cs : List (Contained Mode))
    (hp : parent.id < n) :
    Builds language n (compileContents compile repository parent cs) AllBelow := by
  have happend : ∀ {n1 : Nat} {ids : List Nat} {rest : Build (List Nat)}, AllBelow ids n1 →
      Builds language n1 rest AllBelow →
      Builds language n1 (do return ids ++ (← rest)) AllBelow := by
    intro n1 ids rest hids hrest
    refine builds_bind (builds_mono hrest fun ids' n2 hn2 h =>
      (show AllBelow (ids ++ ids') n2 from allBelow_append (hids.mono hn2) h)) ?_
    intro ids' n2 _ h
    exact builds_pure fun n' hn => h.mono hn
  induction cs generalizing n with
  | nil => exact builds_pure fun n' _ id hid => by cases hid
  | cons c cs ih =>
    cases c with
    | self =>
      have hid : AllBelow [parent.id] n := by
        intro id h
        rw [List.mem_singleton.mp h]
        exact hp
      exact happend hid (ih hp)
    | named name =>
      unfold compileContents
      split
      · exact builds_throw
      · refine builds_bind (builds_compileInner hc parent _ n) fun ids n1 hn1 hids => ?_
        exact happend hids (ih (Nat.lt_of_lt_of_le hp hn1))
    | mode m =>
      refine builds_bind (builds_compileInner hc parent m n) fun ids n1 hn1 hids => ?_
      exact happend hids (ih (Nat.lt_of_lt_of_le hp hn1))

theorem builds_compileStarts (hc : Numbers language compile) (m : Option (Shared Mode)) (n : Nat) :
    Builds language n (compileStarts compile parent m) fun starts n' =>
      ∀ id, starts = some id → id < n' := by
  cases m with
  | none => exact builds_pure fun n' _ id hid => by cases hid
  | some m =>
    refine builds_bind (builds_compileShared hc m n) fun id n1 _ hid => ?_
    refine builds_pure fun n' hn id' hid' => ?_
    cases hid'
    exact Nat.lt_of_lt_of_le hid hn

end Inner

/-! ## 4. Modes -/

/-- **A mode with all that it contains is made soundly.** -/
theorem numbers_compileMode (language : Language) (room : Nat) :
    Numbers language (compileMode language room) := by
  induction room with
  | zero => exact fun m parent key n => builds_throw
  | succ room ih =>
    intro raw parent key n
    refine builds_bind (builds_lift _) fun p n1 _ hparts => ?_
    refine builds_bind (builds_reserve _ _) fun id n2 _ hid => ?_
    refine builds_bind (builds_compileContents ih _ _ hid) fun contains n3 hn3 hcontains => ?_
    refine builds_bind (builds_compileStarts ih _ n3) fun starts n4 hn4 hstarts => ?_
    refine builds_bind builds_get fun b n5 hn5 _ => ?_
    refine builds_bind (builds_lift _) fun rules n6 hn6 hrules => ?_
    have hmade : Made language n6 (p.assemble contains starts rules) := {
      parts := ⟨parent, key, raw, p, hparts, rfl⟩
      rules := ⟨_, hrules⟩
      contains := hcontains.mono (by omega)
      starts := fun i hi => Nat.lt_of_lt_of_le (hstarts i hi) (by omega) }
    refine builds_bind (builds_fill hmade) fun _ n7 hn7 _ => ?_
    exact builds_pure fun n' hn' => by omega

/-! ## 5. Languages -/

variable {name : String} {arena : Arena}

/-- A finished compilation has no gaps. -/
theorem toList_of_finish {slots : Array (Option ArenaMode)} {modes : Array ArenaMode}
    (h : finish slots = .ok modes) : slots.toList = modes.toList.map some := by
  have hmap : ∀ (os : List (Option ArenaMode)) (ms : List ArenaMode), os.mapM id = some ms →
      os = ms.map some := by
    intro os
    induction os with
    | nil =>
      intro ms h
      cases h
      rfl
    | cons o os ih =>
      intro ms h
      simp only [List.mapM_cons, Option.bind_eq_bind, Option.bind_eq_some_iff, id_eq,
        Option.pure_def, Option.some.injEq] at h
      obtain ⟨m, rfl, ms', h', rfl⟩ := h
      rw [ih ms' h', List.map_cons]
  unfold finish at h
  split at h
  · rename_i ms hms
    cases h
    exact hmap _ _ hms
  · cases h

theorem mem_of_finish {slots : Array (Option ArenaMode)} {modes : Array ArenaMode}
    (h : finish slots = .ok modes) :
    modes.size = slots.size ∧ ∀ m ∈ modes, ∃ i : Nat, slots[i]? = some (some m) := by
  have heq := toList_of_finish h
  refine ⟨?_, fun m hm => ?_⟩
  · rw [← Array.length_toList, ← Array.length_toList, heq, List.length_map]
  · obtain ⟨i, hi⟩ := List.mem_iff_getElem?.mp (Array.mem_def.mp hm)
    refine ⟨i, ?_⟩
    rw [← Array.getElem?_toList, heq, List.getElem?_map, hi]
    rfl

/-- **A compiled language**: its modes are made by the compiler, and its root is one of them. -/
theorem made_of_compileLanguage (h : compileLanguage name language = .ok arena) :
    arena.root < arena.modes.size ∧
      ∀ m ∈ arena.modes, Made language arena.modes.size m := by
  simp only [compileLanguage, bind, Except.bind] at h
  split at h
  · cases h
  · rename_i y hy
    cases h
    obtain ⟨root, modes⟩ := y
    have hmodes : compileModes name language = .ok (root, modes) := by
      cases hc : compileModes name language with
      | error e =>
        rw [hc] at hy
        cases hy
      | ok z =>
        rw [hc] at hy
        cases hy
        rfl
    simp only [compileModes, bind, Except.bind] at hmodes
    split at hmodes
    · cases hmodes
    · split at hmodes
      · cases hmodes
      · rename_i z hz
        obtain ⟨root', b⟩ := z
        simp only at hmodes
        split at hmodes
        · cases hmodes
        · rename_i modes' hfinish
          cases hmodes
          have hempty : Sound language ⟨#[], #[], []⟩ :=
            ⟨(fun e he => by cases he), (fun i m hi => by simp at hi)⟩
          obtain ⟨hsound, _, hroot⟩ := numbers_compileMode language maxNesting language.mode none
            none 0 _ _ _ (Nat.zero_le _) hempty hz
          obtain ⟨hsize, hmem⟩ := mem_of_finish hfinish
          refine ⟨by rw [hsize]; exact hroot, fun m hm => ?_⟩
          obtain ⟨i, hi⟩ := hmem m hm
          rw [hsize]
          exact hsound.slots i m hi

/-- The mode with a number is one of the language. -/
theorem mode_mem {id : Nat} (hid : id < arena.modes.size) : arena.mode id ∈ arena.modes := by
  unfold Arena.mode
  rw [Array.getD_eq_getD_getElem?, Array.getElem?_eq_getElem hid]
  exact Array.getElem_mem hid

/-- The mode with a number is made by the compiler. -/
theorem made_mode (h : compileLanguage name language = .ok arena) {id : Nat}
    (hid : id < arena.modes.size) : Made language arena.modes.size (arena.mode id) :=
  (made_of_compileLanguage h).2 _ (mode_mem hid)

end Highlight.Arena
