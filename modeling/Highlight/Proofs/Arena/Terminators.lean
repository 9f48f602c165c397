import Highlight.Proofs.Arena.Links
import Highlight.Proofs.Arena.Memo

/-!
# What ends a mode that ends with its parent

A mode that ends with the mode around it is compiled for the terminator of that mode, and what ends
that one ends it too. There is one way around it: a mode that contains itself and starts another one
can start it inside itself, where it was compiled for the mode further out.

* `IsAlternative` -- the alternatives of a pattern;
* `Follows`, `StartedInItself` -- which modes can be open right inside another one, and which of them
  where that stands inside itself;
* `KnownFor` -- modes that were compiled for a terminator, or for any;
* `alternative_of_follows` -- what ends a mode ends those that follow it and end with their parent.
-/

namespace Highlight.Arena

open Highlight.Grammar
open Relation (TransGen)

variable {name : String} {l : Language} {arena : Arena} {b : Building} {t : String} {p c d : Nat}

/-! ## 1. Alternatives -/

/-- **An alternative of a pattern**: what stands between two bars, or between a bar and an end of the
    pattern. -/
def IsAlternative (a pattern : String) : Prop :=
  pattern ≠ "" ∧ ∃ before after, pattern = before ++ a ++ after ∧
    (before = "" ∨ ∃ others, before = others ++ "|") ∧ (after = "" ∨ ∃ others, after = "|" ++ others)

/-- A pattern behind a bar has the alternatives that it has by itself. -/
theorem isAlternative_behind {a pattern : String} (h : IsAlternative a pattern) (own : String) :
    IsAlternative a (own ++ "|" ++ pattern) := by
  obtain ⟨_, before, after, rfl, hbefore, hafter⟩ := h
  refine ⟨fun hempty => ?_, own ++ "|" ++ before, after, ?_, ?_, hafter⟩
  · have := congrArg String.length hempty
    simp at this
  · simp only [String.append_assoc]
  · rcases hbefore with rfl | ⟨others, rfl⟩
    · exact .inr ⟨own, String.append_empty ..⟩
    · exact .inr ⟨own ++ "|" ++ others, by simp only [String.append_assoc]⟩

/-! ## 2. Modes that follow another -/

/-- That a mode starts another one. -/
def Starts (arena : Arena) (x y : Nat) : Prop := (arena.mode x).starts = some y

/-- **The modes that can be open right inside another one**: those that it contains, and what they
    start, one after the other. -/
inductive Follows (arena : Arena) (p : Nat) : Nat → Prop
  | inside {c : Nat} : c ∈ (arena.mode p).contains → Follows arena p c
  | started {c d : Nat} : Follows arena p c → Starts arena c d → Follows arena p d

/-- A mode contains itself, and another one is that mode or is started from it. -/
def StartedInItself (arena : Arena) (p c : Nat) : Prop :=
  p ∈ (arena.mode p).contains ∧ (c = p ∨ TransGen (Starts arena) p c)

/-! ## 3. The terminators that modes were compiled for -/

/-- What a building has to do with the arena that comes of it. -/
structure BuiltFrom (l : Language) (b : Building) (arena : Arena) : Prop where
  coherent : Coherent l (fun _ _ _ => True) b
  modes : b.slots.toList = arena.modes.toList.map some

theorem exists_builtFrom (hc : compileLanguage name l = .ok arena) : ∃ b, BuiltFrom l b arena := by
  have hpasses : Passes l fun _ _ _ => True := ⟨fun _ _ _ _ _ => trivial, fun _ _ _ => trivial⟩
  obtain ⟨b, hb, hmodes, _⟩ := coherent_of_compileLanguage hpasses hc
  exact ⟨b, hb, hmodes⟩

/-- A mode of the language has been put into its place, or there is none with the number. -/
theorem filled_mode {Ok : Bool → Identity → Mode → Prop} (hb : Coherent l Ok b)
    (hmodes : b.slots.toList = arena.modes.toList.map some) (id : Nat) :
    arena.mode id = .blank ∨ ∃ parent key raw p, From l b id (arena.mode id) parent key raw p ∧
      Admitted l Ok parent raw key ∧ ∀ k, b.memo.lookup k = some id ↔ key = some k := by
  unfold Arena.mode
  rw [Array.getD_eq_getD_getElem?]
  cases hm : arena.modes[id]? with
  | none => exact .inl rfl
  | some m =>
    refine .inr (hb.filled id m ?_)
    rw [← Array.getElem?_toList, hmodes, List.getElem?_map, Array.getElem?_toList, hm]
    rfl

/-- A mode is known by a key that fits a mode with a terminator around it. -/
def KnownFor (b : Building) (t : String) (c : Nat) : Prop :=
  ∃ k, b.memo.lookup k = some c ∧ (k.terminator = none ∨ k.terminator = some t)

theorem keyOf_terminator (s : Shared Mode) (t : String) :
    (keyOf s t).terminator = none ∨ (keyOf s t).terminator = some t := by
  unfold keyOf
  split
  · exact .inr rfl
  · exact .inl rfl

/-- **What a mode contains was compiled for its terminator**, apart from itself. -/
theorem knownFor_of_contains (hb : BuiltFrom l b arena) (hmem : c ∈ (arena.mode p).contains) :
    c = p ∨ KnownFor b (arena.mode p).terminator c := by
  rcases filled_mode hb.coherent hb.modes p with hblank | ⟨parent, key, raw, q, hfrom, _, _⟩
  · rw [hblank] at hmem
    cases hmem
  · obtain ⟨entries, _, hmap⟩ := hfrom.contains
    have hterminator : (arena.mode p).terminator = q.delimiters.terminator := by
      rw [hfrom.assembled]
      rfl
    have hsome : some c ∈ entries.map (b.numberOf p q.delimiters.terminator) :=
      hmap ▸ List.mem_map_of_mem hmem
    obtain ⟨e, _, he⟩ := List.mem_map.mp hsome
    cases e with
    | none => exact .inl (Option.some.inj he).symm
    | some s =>
      rw [hterminator]
      exact .inr ⟨_, he, keyOf_terminator s _⟩

/-- The terminator of a mode inside another one. -/
theorem terminator_of_compileParts {parent : Parent} {key : Option Key} {raw : Mode} {q : Parts}
    (h : compileParts l (some parent) key raw = .ok q) : q.delimiters.terminator =
      terminatorOf q.prepared.mode (ownEnd q.prepared.mode) parent.terminator := by
  have hdelimiters := delimiters_of_compileParts h
  simp only [compileDelimiters, bind, Except.bind, pure, Except.pure] at hdelimiters
  split at hdelimiters
  · cases hdelimiters
  · split at hdelimiters
    · cases hdelimiters
    · cases hd : q.delimiters
      rw [hd] at hdelimiters
      cases hdelimiters
      rfl

variable (hext : l.extensions = [])

include hext

/-- **What a mode starts was compiled for the same terminator as the mode.** -/
theorem knownFor_of_starts (hb : BuiltFrom l b arena) (hknown : KnownFor b t c)
    (hstarts : Starts arena c d) : KnownFor b t d := by
  rcases filled_mode hb.coherent hb.modes c with hblank | ⟨parent, key, raw, q, hfrom, hadmitted, hkey⟩
  · rw [Starts, hblank] at hstarts
    cases hstarts
  · obtain ⟨k, hk, hfits⟩ := hknown
    rw [(hkey k).mp hk] at hadmitted
    have hmap := hfrom.starts
    rw [show (arena.mode c).starts = some d from hstarts] at hmap
    obtain ⟨s, hs, hd⟩ := Option.map_eq_some_iff.mp hmap
    refine ⟨_, hd, ?_⟩
    have hprepare := prepare_of_compileParts hfrom.parts
    rw [hext] at hprepare
    cases hdepends : s.value.dependsOnParent with
    | false => exact .inl (by simp [keyOf, hdepends])
    | true =>
      -- What it starts depends on the mode around it, so it does itself, and `t` ends that one.
      have hraw := dependsOnParent_of_prepare_starts hprepare hs hdepends
      have houter : k.terminator = some (outerTerminator parent) := by
        rw [hadmitted.2, hraw]
        rfl
      have ht : outerTerminator parent = t := by
        rcases hfits with hnone | hsome
        · rw [houter] at hnone
          cases hnone
        · exact Option.some.inj (houter.symm.trans hsome)
      rw [ht]
      exact keyOf_terminator s t

/-- A mode that ends with its parent was compiled for the terminator that it is known for. -/
theorem from_of_knownFor (hb : BuiltFrom l b arena) (hknown : KnownFor b t c)
    (hends : (arena.mode c).endsWithParent = true) : ∃ parent key raw q,
      From l b c (arena.mode c) parent key raw q ∧ isSet q.prepared.mode.endsWithParent = true ∧
        outerTerminator parent = t := by
  rcases filled_mode hb.coherent hb.modes c with hblank | ⟨parent, key, raw, q, hfrom, hadmitted, hkey⟩
  · rw [hblank] at hends
    cases hends
  · obtain ⟨k, hk, hfits⟩ := hknown
    rw [(hkey k).mp hk] at hadmitted
    have hprepare := prepare_of_compileParts hfrom.parts
    rw [hext] at hprepare
    have hset : isSet q.prepared.mode.endsWithParent = true := by
      rw [hfrom.assembled] at hends
      exact hends
    have hraw := dependsOnParent_of_prepare_ends hprepare hset
    have houter : k.terminator = some (outerTerminator parent) := by
      rw [hadmitted.2, hraw]
      rfl
    refine ⟨parent, key, raw, q, hfrom, hset, ?_⟩
    rcases hfits with hnone | hsome
    · rw [houter] at hnone
      cases hnone
    · exact Option.some.inj (houter.symm.trans hsome)

/-- **A mode that ends with its parent ends where the mode that it was compiled for does.** -/
theorem alternative_of_knownFor (hb : BuiltFrom l b arena) (hknown : KnownFor b t c)
    (hends : (arena.mode c).endsWithParent = true) {a : String} (ha : IsAlternative a t) :
    IsAlternative a (arena.mode c).terminator := by
  obtain ⟨parent, key, raw, q, hfrom, hset, ht⟩ := from_of_knownFor hext hb hknown hends
  cases parent with
  | none => exact absurd ht.symm ha.1
  | some parent =>
    have hterminator : (arena.mode c).terminator =
        terminatorOf q.prepared.mode (ownEnd q.prepared.mode) t := by
      rw [hfrom.assembled, ← ht]
      exact terminator_of_compileParts hfrom.parts
    rw [hterminator]
    unfold terminatorOf
    rw [hset, bne_iff_ne.mpr ha.1]
    cases ownEnd q.prepared.mode with
    | none => exact ha
    | some own => exact isAlternative_behind ha own

/-- What follows a mode is known for its terminator, unless the mode contains itself and what follows
    is started from there. -/
theorem knownFor_of_follows (hb : BuiltFrom l b arena) (hfollows : Follows arena p c) :
    KnownFor b (arena.mode p).terminator c ∨ StartedInItself arena p c := by
  induction hfollows with
  | inside hmem =>
    rcases knownFor_of_contains hb hmem with rfl | hknown
    · exact .inr ⟨hmem, .inl rfl⟩
    · exact .inl hknown
  | started _ hstarts ih =>
    rcases ih with hknown | ⟨hself, rfl | hsteps⟩
    · exact .inl (knownFor_of_starts hext hb hknown hstarts)
    · exact .inr ⟨hself, .inr (.single hstarts)⟩
    · exact .inr ⟨hself, .inr (.tail hsteps hstarts)⟩

/-- **What ends a mode ends the modes that follow it and end with their parent**, unless the mode
    contains itself and they are started one after the other where it stands inside itself. -/
theorem alternative_of_follows (hc : compileLanguage name l = .ok arena) (hfollows : Follows arena p c)
    (hends : (arena.mode c).endsWithParent = true) {a : String}
    (ha : IsAlternative a (arena.mode p).terminator) :
    IsAlternative a (arena.mode c).terminator ∨
      (p ∈ (arena.mode p).contains ∧ TransGen (Starts arena) p c) := by
  obtain ⟨b, hb⟩ := exists_builtFrom hc
  rcases knownFor_of_follows hext hb hfollows with hknown | ⟨hself, rfl | hsteps⟩
  · exact .inl (alternative_of_knownFor hext hb hknown hends ha)
  · exact .inl ha
  · exact .inr ⟨hself, hsteps⟩

end Highlight.Arena
