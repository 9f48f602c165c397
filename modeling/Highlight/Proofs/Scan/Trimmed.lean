import Highlight.Proofs.Arena.Sharing
import Highlight.Proofs.Arena.WellFormed
import Highlight.Proofs.Registry.Built
import Highlight.Proofs.Scan.Rejections

/-!
# Languages without some of what their modes contain

A language and the same one without entries that never begin are compiled. Modes are numbered
otherwise, and shared where they were not; but modes that are written the same come to the same,
and have the same rules but for those that are left out.

* `SameWritten` -- modes that are written the same;
* `Opened`, `SameInside`, `same_inside` -- what they are made of, and what stands inside them;
* `Quiet`, `ReadsApart` -- what the rules of a language have to be like;
* `thinned_rules`, `trims_of_trimmedLanguage` -- their rules, and the languages;
* `isLetters`, `quiet_of_isLetters`, `apart_of_isLetters` -- languages whose patterns are letters.
-/

namespace Highlight.Arena

open Highlight.Grammar
open Highlight.Highlighter (name_of_compileLanguage)

/-! ## 1. Compiled modes -/

/-- **Modes that are written the same**, but for entries that are left out in the second language,
    and stand in modes with the same terminator. -/
def SameWritten (l l' : Language) (arena arena' : Arena) (i i' : Nat) : Prop :=
  ∃ key raw outer key' raw', Stands l arena i key raw outer ∧ Stands l' arena' i' key' raw' outer ∧
    Trimmed l none raw raw'

variable {l l' : Language} {raw : Mode} {arena arena' : Arena} {name : String}
  {i i' slot : Nat} {key : Option Key} {outer : Option String}

/-- What stands at a place is one of the modes of the language. -/
theorem Stands.lt (hc : compileLanguage name l = .ok arena)
    (h : Stands l arena slot key raw outer) : slot < arena.modes.size := by
  have hwell := wellFormed_of_compileLanguage hc
  induction h with
  | root => exact hwell.root ▸ hwell.size_pos
  | contained _ _ _ _ hi ih => exact hwell.contains _ ih _ (List.mem_of_getElem? hi)
  | started _ _ _ hi ih => exact hwell.starts _ ih _ hi

/-- Some mode with a terminator, to be around another one. -/
def around (outer : Option String) : Option Parent := outer.map fun t => ⟨0, {}, t⟩

/-- **What stands at a place, and what stands there inside it**: what it comes to by itself, the
    entries of what it contains, and the places of these and of what it starts. -/
structure Opened (l : Language) (arena : Arena) (number : Key → Nat) (slot : Nat) (key : Option Key)
    (raw : Mode) (outer : Option String) (p : Parts) (es : List (Option (Shared Mode))) : Prop where
  parts : compileParts l (around outer) key raw = .ok p
  entries : entriesOf l.repository (p.prepared.mode.contains.getD []) = .ok es
  made : arena.mode slot = p.assemble (es.map (numberIn number slot p.delimiters.terminator))
    (p.prepared.mode.starts.map fun s => number (keyOf s (outer.getD ""))) (arena.mode slot).rules
  inner : ∀ s, some s ∈ es → Stands l arena (number (keyOf s p.delimiters.terminator))
    (some (keyOf s p.delimiters.terminator)) s.value (some p.delimiters.terminator)
  next : ∀ s, p.prepared.mode.starts = some s → Stands l arena (number (keyOf s (outer.getD "")))
    (some (keyOf s (outer.getD ""))) s.value outer

theorem AsIfAnew.opened {number : Key → Nat} (h : AsIfAnew l arena number slot key raw outer)
    (hstands : Stands l arena slot key raw outer) :
    ∃ p es, Opened l arena number slot key raw outer p es := by
  have houter : (around outer).map (·.terminator) = outer := by
    cases outer <;> rfl
  obtain ⟨p, es, hp, _, hes, hmade⟩ := h.made _ houter
  have hcomes : ComesTo l outer key raw p := ⟨_, houter, hp⟩
  have hterminator : (arena.mode slot).terminator = p.delimiters.terminator := by
    rw [hmade]
    rfl
  refine ⟨p, es, hp, hes, hmade, fun s hs => ?_, fun s hs => ?_⟩
  · obtain ⟨j, hj⟩ := List.getElem?_of_mem hs
    rw [← hterminator]
    refine .contained hstands hcomes hes hj ?_
    rw [hterminator, hmade]
    show (es.map _)[j]? = _
    rw [List.getElem?_map, hj]
    rfl
  · refine .started hstands hcomes hs ?_
    rw [hmade]
    show p.prepared.mode.starts.map _ = _
    rw [hs]
    rfl

/-- A mode that never begins and has nothing to be read before it has its hook where it stands. -/
theorem Opened.never {number : Key → Nat} {p : Parts} {es : List (Option (Shared Mode))}
    (hext : l.extensions = []) (ho : Opened l arena number slot key raw outer p es) (h : Idle raw) :
    NeverBegins (arena.mode slot).onBegin := by
  have hprepare := prepare_of_compileParts ho.parts
  rw [hext] at hprepare
  have hbegins : (arena.mode slot).onBegin = raw.onBegin := by
    rw [ho.made]
    exact onBegin_of_prepare hprepare h.before
  rw [hbegins]
  exact h.never

/-- **Modes that are written the same are made of the same**, but for what is left out. -/
structure SameInside (l l' : Language) (arena arena' : Arena) (i i' : Nat) : Prop where
  parts : ∃ p p', SameParts l p p' ∧
    arena.mode i = p.assemble (arena.mode i).contains (arena.mode i).starts (arena.mode i).rules ∧
    arena'.mode i' =
      p'.assemble (arena'.mode i').contains (arena'.mode i').starts (arena'.mode i').rules
  contains : Thinned (SameWritten l l' arena arena') (fun c => NeverBegins (arena.mode c).onBegin)
    (arena.mode i).contains (arena'.mode i').contains
  starts : Option.Rel (SameWritten l l' arena arena') (arena.mode i).starts (arena'.mode i').starts

section Places

variable (hl : TrimmedLanguage l l') (hext : l.extensions = []) (hroot : l.mode.starts = none)
  (hw : WellNamed l) (hw' : WellNamed l') (hc : compileLanguage name l = .ok arena)
  (hc' : compileLanguage name l' = .ok arena')

include hl hext hroot hw hw' hc hc'

/-- **Modes that are written the same contain the same**, but for what is left out, and start the
    same. -/
theorem same_inside (h : SameWritten l l' arena arena' i i') :
    SameInside l l' arena arena' i i' := by
  have hext' : l'.extensions = [] := hl.extensions.trans hext
  have hroot' : l'.mode.starts = none := by
    have hstarts := hl.mode.trimmedBy.starts
    rw [hroot] at hstarts
    generalize l'.mode.starts = s at hstarts
    cases hstarts
    rfl
  obtain ⟨number, hnumber⟩ := sharing_is_transparent hw hext hroot hc
  obtain ⟨number', hnumber'⟩ := sharing_is_transparent hw' hext' hroot' hc'
  obtain ⟨key, raw, outer, key', raw', hstands, hstands', htrimmed⟩ := h
  obtain ⟨p, es, ho⟩ := (hnumber i key raw outer hstands).opened hstands
  obtain ⟨p', es', ho'⟩ := (hnumber' i' key' raw' outer hstands').opened hstands'
  have hparts := trimmed_compileParts hl hext htrimmed ho.parts ho'.parts
  have hby := hparts.prepared.mode.trimmedBy
  have hentries : Thinned (SameEntry l) (Gone p.prepared.mode) es es' := by
    have hcontains := hby.contains
    have hes := ho.entries
    have hes' := ho'.entries
    generalize p.prepared.mode.contains = cs at hcontains hes
    generalize p'.prepared.mode.contains = cs' at hcontains hes'
    cases hcontains with
    | none =>
      cases hes
      cases hes'
      exact .nil
    | some hcs => exact thinned_entriesOf hl hcs hes hes'
  have hinner' := ho'.inner
  have hmade' := ho'.made
  rw [hparts.delimiters] at hinner' hmade'
  refine ⟨⟨p, p', hparts, ?_, ?_⟩, ?_, ?_⟩
  · rw [ho.made]
    rfl
  · rw [ho'.made]
    rfl
  · rw [ho.made, hmade']
    refine hentries.map (fun e he e' he' hsame => ?_) fun e he hgone => ?_
    · cases hsame with
      | none => exact ⟨key, raw, outer, key', raw', hstands, hstands', htrimmed⟩
      | some hs => exact ⟨_, _, _, _, _, ho.inner _ he, hinner' _ he', hs⟩
    · cases e with
      | none =>
        show NeverBegins (arena.mode i).onBegin
        rw [ho.made]
        exact hgone
      | some s =>
        have hstands := ho.inner s he
        obtain ⟨_, _, hos⟩ := (hnumber _ _ _ _ hstands).opened hstands
        exact hos.never hext hgone
  · have hnext := ho.next
    have hnext' := ho'.next
    have hrel := hby.starts
    rw [ho.made, ho'.made]
    show Option.Rel _ (p.prepared.mode.starts.map _) (p'.prepared.mode.starts.map _)
    generalize p.prepared.mode.starts = s at hrel hnext ⊢
    generalize p'.prepared.mode.starts = s' at hrel hnext' ⊢
    cases hrel with
    | none => exact .none
    | some hs => exact .some ⟨_, _, _, _, _, hnext _ rfl, hnext' _ rfl, hs⟩

end Places

/-! ## 2. Languages -/

/-- No end reads nothing where a beginning matches that never counts. -/
def Quiet (arena : Arena) : Prop :=
  ∀ i < arena.modes.size, ∀ r ∈ (arena.mode i).rules.rules, ∀ c, r.kind = .begins c →
    NeverBegins (arena.mode c).onBegin → ∀ text j k,
      (r.own (arena.mode i).rules.folded text j k).isSome = true →
        Scan.EndsRead (arena.mode i).rules text j

/-- In every mode, merged patterns find what the rules find by themselves. -/
def ReadsApart (arena : Arena) : Prop :=
  ∀ i < arena.modes.size, ∀ text, (arena.mode i).rules.ReadsApart text

theorem SameParts.assemble {p p' : Parts} (h : SameParts l p p') (contains contains' : List Nat)
    (starts starts' : Option Nat) (rules rules' : RuleSet) :
    p'.assemble contains' starts' rules' = { p.assemble contains starts rules with
      contains := contains', starts := starts', rules := rules' } := by
  obtain ⟨hprepared, hdelimiters, hillegal, hkeywords⟩ := h
  unfold Parts.assemble
  rw [hprepared.mode.trimmedBy.same, hprepared.beginScope, hprepared.endScope,
    hprepared.skipAfterDot, hdelimiters, hillegal, hkeywords]
  rfl

theorem SameInside.sameMode (h : SameInside l l' arena arena' i i') :
    Scan.SameMode (SameWritten l l' arena arena') (arena.mode i) (arena'.mode i') := by
  obtain ⟨⟨p, p', hparts, hmade, hmade'⟩, _, hstarts⟩ := h
  have hsame := hparts.assemble (arena.mode i).contains (arena'.mode i').contains
    (arena.mode i).starts (arena'.mode i').starts (arena.mode i).rules (arena'.mode i').rules
  rw [← hmade, ← hmade'] at hsame
  exact ⟨⟨_, _, _, hsame⟩, hstarts⟩

/-- What a language says of itself is in its arena. -/
theorem header_of_compileLanguage (hc : compileLanguage name l = .ok arena) :
    arena.aliases = l.aliases ∧ arena.disableAutodetect = l.disableAutodetect ∧
      arena.supersetOf = l.supersetOf.map Text.lowered ∧
      arena.classNameAliases = l.classNameAliases := by
  simp only [compileLanguage, bind, Except.bind] at hc
  split at hc
  · cases hc
  · cases hc
    exact ⟨rfl, rfl, rfl, rfl⟩

theorem folded_of_compileLanguage (hc : compileLanguage name l = .ok arena)
    (hi : i < arena.modes.size) : (arena.mode i).rules.folded = l.caseInsensitive := by
  obtain ⟨source, hmake⟩ := (made_mode hc hi).rules
  exact (RuleSet.make_eq_ok hmake).2.1

section Trims

variable (hl : TrimmedLanguage l l') (hext : l.extensions = []) (hroot : l.mode.starts = none)
  (hw : WellNamed l) (hw' : WellNamed l') (hc : compileLanguage name l = .ok arena)
  (hc' : compileLanguage name l' = .ok arena')

include hl hext hroot hw hw' hc hc'

/-- **The rules of a mode are those that it has with nothing left out**, but for those of the modes
    that are. -/
theorem thinned_rules (hquiet : arena.Quiet) (h : SameWritten l l' arena arena' i i')
    (hi : i < arena.modes.size) (hi' : i' < arena'.modes.size) :
    Thinned (SameRule (SameWritten l l' arena arena')) (Scan.MayLack arena (arena.mode i).rules)
      (arena.mode i).rules.rules (arena'.mode i').rules.rules := by
  have hinside := same_inside hl hext hroot hw hw' hc hc' h
  have hwell := wellFormed_of_compileLanguage hc
  have hbegins : Thinned (SameRule (SameWritten l l' arena arena'))
      (Scan.MayLack arena (arena.mode i).rules)
      ((arena.mode i).contains.map fun c => ⟨.begins c, (arena.mode c).beginSource⟩)
      ((arena'.mode i').contains.map fun c => ⟨.begins c, (arena'.mode c).beginSource⟩) := by
    refine hinside.contains.map (fun c _ c' _ hsame => ⟨.begins hsame, ?_⟩) fun c hmem hnever => ?_
    · obtain ⟨_, _, _, hmode⟩ := (same_inside hl hext hroot hw hw' hc hc' hsame).sameMode.same
      rw [hmode]
    · refine ⟨c, rfl, hnever, fun text j k hown => hquiet i hi _ ?_ c rfl hnever text j k hown⟩
      rw [hwell.rules i hi]
      exact List.mem_append_left _ (List.mem_append_left _ (List.mem_map_of_mem hmem))
  have hrest : ∀ rules : List Rule, (∀ r ∈ rules, r.kind = .ends ∨ r.kind = .illegal) →
      Thinned (SameRule (SameWritten l l' arena arena')) (Scan.MayLack arena (arena.mode i).rules)
        rules rules := by
    intro rules hrules
    refine .of_forall₂ (List.forall₂_same.mpr fun r hr => ⟨?_, rfl⟩)
    rcases hrules r hr with hkind | hkind
    · rw [hkind]
      exact .ends
    · rw [hkind]
      exact .illegal
  obtain ⟨_, _, _, hmode⟩ := hinside.sameMode.same
  have hterminator : (arena'.mode i').terminator = (arena.mode i).terminator := by rw [hmode]
  have hillegal : (arena'.mode i').illegal = (arena.mode i).illegal := by rw [hmode]
  rw [hwell.rules i hi, (wellFormed_of_compileLanguage hc').rules i' hi', hterminator, hillegal]
  refine (hbegins.append (hrest _ fun r hr => .inl ?_)).append (hrest _ fun r hr => .inr ?_)
  · split at hr
    · cases hr
    · rw [List.mem_singleton.mp hr]
  · obtain ⟨_, _, rfl⟩ := List.mem_map.mp hr
    rfl

/-- **A language without some entries that never begin comes to an arena without their rules.** -/
theorem trims_of_trimmedLanguage (hquiet : arena.Quiet) (hapart : arena.ReadsApart)
    (hapart' : arena'.ReadsApart) : Scan.Trims (SameWritten l l' arena arena') arena arena' := by
  have hbounded : ∀ {i i' : Nat}, SameWritten l l' arena arena' i i' →
      i < arena.modes.size ∧ i' < arena'.modes.size := by
    rintro i i' ⟨_, _, _, _, _, hstands, hstands', _⟩
    exact ⟨hstands.lt hc, hstands'.lt hc'⟩
  obtain ⟨_, _, _, haliases⟩ := header_of_compileLanguage hc
  obtain ⟨_, _, _, haliases'⟩ := header_of_compileLanguage hc'
  refine ⟨⟨?_, ?_, ?_, fun h => ?_⟩, hbounded, fun h => ?_, fun h => ?_, fun h text => ?_⟩
  · rw [name_of_compileLanguage hc, name_of_compileLanguage hc']
  · rw [haliases, haliases', hl.same]
  · exact ⟨_, _, _, _, _, .root, .root, hl.mode⟩
  · exact (same_inside hl hext hroot hw hw' hc hc' h).sameMode
  · rw [folded_of_compileLanguage hc (hbounded h).1, folded_of_compileLanguage hc' (hbounded h).2,
      hl.caseInsensitive]
  · exact thinned_rules hl hext hroot hw hw' hc hc' hquiet h (hbounded h).1 (hbounded h).2
  · exact ⟨hapart _ (hbounded h).1 text, hapart' _ (hbounded h).2 text⟩

end Trims

/-! ## 3. Letters -/

section Letters

variable {text : Text} {rs : RuleSet} {folded : Bool} {r r' : Rule} {c c' : Char} {k : Nat}

/-- The pattern of the rule is a letter. -/
def Rule.isLetter (folded : Bool) (c : Char) (r : Rule) : Bool :=
  (compilePattern r.source folded).toOption == some ⟨.text [c], 0⟩ &&
    (groupCount r.source).toOption == some 0

theorem own_letter (h : r.isLetter folded c = true) {j : Nat} (hj : j ≤ text.size) (k : Nat) :
    r.own folded text j k =
      if Regex.standsAt text [c] j then some ⟨r.kind, k, ⟨j, j + 1⟩, [some ⟨j, j + 1⟩]⟩
      else none := by
  simp only [Rule.isLetter, Bool.and_eq_true, beq_iff_eq] at h
  simp only [Rule.own, h.1, h.2, Option.bind_eq_bind, Option.bind_some, Regex.matchAt, if_pos hj,
    Regex.matchFrom, Regex.Node.run]
  split
  · rfl
  · rfl

/-- The merged pattern of one rule that is a letter. -/
def oneLetter (c : Char) (k : Nat) (kind : RuleKind) : Merged :=
  ⟨⟨.group 1 false (.text [c]), 1⟩, [⟨1, 0, k, kind⟩]⟩

/-- The merged pattern of two rules that are letters. -/
def twoLetters (c c' : Char) (kind kind' : RuleKind) : Merged :=
  ⟨⟨.alt (.group 1 true (.text [c])) (.group 2 true (.text [c'])), 2⟩,
    [⟨1, 0, 0, kind⟩, ⟨2, 0, 1, kind'⟩]⟩

theorem search_oneLetter (h : r.isLetter folded c = true) (k i : Nat) :
    (oneLetter c k r.kind).search text i =
      (ownFrom folded text k [r] (text.size + 1 - i) i).head? := by
  refine search_eq_head? fun j hj => ?_
  simp only [ownAt, own_letter h hj, oneLetter, Regex.matchFrom, Regex.Node.run]
  by_cases hc : Regex.standsAt text [c] j = true
  · have hc' : Regex.standsAt text [c] (Regex.Place.beginGroup ⟨j, []⟩ 1 false).pos = true := hc
    simp only [hc, hc', if_true]
    exact ⟨_, rfl, rfl⟩
  · have hc' : ¬ Regex.standsAt text [c] (Regex.Place.beginGroup ⟨j, []⟩ 1 false).pos = true := hc
    simp only [if_neg hc, if_neg hc']
    rfl

theorem search_twoLetters (h : r.isLetter folded c = true) (h' : r'.isLetter folded c' = true)
    (i : Nat) : (twoLetters c c' r.kind r'.kind).search text i =
      (ownFrom folded text 0 [r, r'] (text.size + 1 - i) i).head? := by
  refine search_eq_head? fun j hj => ?_
  simp only [ownAt, own_letter h hj, own_letter h' hj, twoLetters, Regex.matchFrom, Regex.Node.run]
  have hbegin : ∀ g, (Regex.Place.beginGroup ⟨j, []⟩ g true).pos = j := fun _ => rfl
  simp only [hbegin]
  by_cases hc : Regex.standsAt text [c] j = true
  · simp only [hc, if_true]
    exact ⟨_, rfl, rfl⟩
  · simp only [if_neg hc]
    by_cases hc' : Regex.standsAt text [c'] j = true
    · simp only [hc', if_true]
      exact ⟨_, rfl, rfl⟩
    · simp only [if_neg hc']
      rfl

/-- The rules are letters, and merged as such; there are two of them at most. -/
def RuleSet.isLetters (rs : RuleSet) : Bool :=
  let build (k : Nat) (rules : List Rule) := (Merged.build rs.folded k rules).toOption
  match rs.rules with
  | [] => true
  | [r] => r.source.toList.any fun c =>
    r.isLetter rs.folded c && build 0 [r] == some (oneLetter c 0 r.kind)
  | [r, r'] => r.source.toList.any fun c => r'.source.toList.any fun c' =>
    r.isLetter rs.folded c && r'.isLetter rs.folded c' &&
      build 0 [r, r'] == some (twoLetters c c' r.kind r'.kind) &&
      build 1 [r'] == some (oneLetter c' 1 r'.kind)
  | _ => false

theorem ok_of_toOption {α : Type} {x : Except Cause α} {a : α} (h : x.toOption = some a) :
    x = .ok a := by
  cases x with
  | ok _ => exact congrArg Except.ok (Option.some.inj h)
  | error _ => cases h

/-- **Letters read the same in merged patterns.** -/
theorem readsApart_of_isLetters (h : rs.isLetters = true) : rs.ReadsApart text := by
  intro k hk
  rw [show rs.size = rs.rules.length from rfl] at hk
  rw [RuleSet.mergedFrom_eq]
  unfold RuleSet.isLetters at h
  split at h
  · rename_i hrules
    rw [hrules] at hk
    cases hk
  · rename_i r hrules
    obtain ⟨c, _, h⟩ := List.any_eq_true.mp h
    simp only [Bool.and_eq_true, beq_iff_eq] at h
    rw [hrules] at hk ⊢
    obtain rfl : k = 0 := by simpa using hk
    exact ⟨_, ok_of_toOption h.2, search_oneLetter h.1 0⟩
  · rename_i r r' hrules
    obtain ⟨c, _, h⟩ := List.any_eq_true.mp h
    obtain ⟨c', _, h⟩ := List.any_eq_true.mp h
    simp only [Bool.and_eq_true, beq_iff_eq] at h
    obtain ⟨⟨⟨hr, hr'⟩, htwo⟩, hone⟩ := h
    rw [hrules] at hk ⊢
    rcases k with _ | _ | k
    · exact ⟨_, ok_of_toOption htwo, search_twoLetters hr hr'⟩
    · exact ⟨_, ok_of_toOption hone, search_oneLetter hr' 1⟩
    · exact absurd hk (by simp)
  · cases h

theorem isLetter_of_isLetters (h : rs.isLetters = true) (hr : r ∈ rs.rules) :
    ∃ c, r.isLetter rs.folded c = true := by
  unfold RuleSet.isLetters at h
  split at h
  · rename_i hrules
    rw [hrules] at hr
    cases hr
  · rename_i r1 hrules
    obtain ⟨c, _, h⟩ := List.any_eq_true.mp h
    simp only [Bool.and_eq_true] at h
    rw [hrules] at hr
    rw [List.mem_singleton.mp hr]
    exact ⟨c, h.1⟩
  · rename_i r1 r1' hrules
    obtain ⟨c, _, h⟩ := List.any_eq_true.mp h
    obtain ⟨c', _, h⟩ := List.any_eq_true.mp h
    simp only [Bool.and_eq_true] at h
    rw [hrules] at hr
    rcases List.mem_cons.mp hr with rfl | hr
    · exact ⟨c, h.1.1.1⟩
    · rw [List.mem_singleton.mp hr]
      exact ⟨c', h.1.1.2⟩
  · cases h

/-- A letter never reads nothing. -/
theorem endsRead_of_isLetters (h : rs.isLetters = true) (i : Nat) : Scan.EndsRead rs text i := by
  intro r hr _ k m hown
  obtain ⟨c, hc⟩ := isLetter_of_isLetters h hr
  rw [own_letter hc (own_eq_some hown).2.2.2] at hown
  split at hown
  · cases hown
    exact beq_false_of_ne (Nat.ne_of_lt (Nat.lt_succ_self i))
  · cases hown

/-- The rules of every mode are letters. -/
def isLetters (arena : Arena) : Bool := arena.modes.all (·.rules.isLetters)

theorem isLetters_mode (h : arena.isLetters = true) (hi : i < arena.modes.size) :
    (arena.mode i).rules.isLetters = true := by
  unfold Arena.mode
  rw [Array.getD_eq_getD_getElem?, Array.getElem?_eq_getElem hi]
  exact Array.all_eq_true.mp h i hi

/-- **Languages whose patterns are letters are as they have to be.** -/
theorem quiet_of_isLetters (h : arena.isLetters = true) : arena.Quiet :=
  fun _ hi _ _ _ _ _ _ j _ _ => endsRead_of_isLetters (isLetters_mode h hi) j

theorem apart_of_isLetters (h : arena.isLetters = true) : arena.ReadsApart :=
  fun _ hi _ => readsApart_of_isLetters (isLetters_mode h hi)

end Letters

end Highlight.Arena
