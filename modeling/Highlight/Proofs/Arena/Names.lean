import Highlight.Proofs.Arena.Links
import Highlight.Proofs.Arena.Memo
import Highlight.Proofs.Lists

/-!
# What identities stand for

A mode may be written once and stand in several places; it is one mode where it has one identity. The
compiler makes modes of its own, for variants and for what comes before a mode, with identities that
it makes for them. Where what is written under one identity is one mode, so is what is compiled.

* `Within`, `Written` -- the modes that a language is written with, and those that have an identity;
* `WellNamed` -- what is written under one identity is one mode;
* `Names` -- what an identity stands for, those of the compiler's own modes included;
* `names_unique` -- it is one mode;
* `passes_names` -- what a mode refers to has a name again.
-/

namespace Highlight.Arena

open Highlight.Grammar

variable {l : Language} {id : Identity} {v v' raw : Mode} {m : Shared Mode}

/-! ## 1. What is written -/

/-- **The modes that a language is written with**: its root, those of its repository, and those that
    stand in one of them. -/
inductive Within (l : Language) : Mode → Prop
  | root : Within l l.mode
  | named {name : String} {m : Shared Mode} : (name, m) ∈ l.repository.entries → Within l m.value
  | contained {v : Mode} {m : Shared Mode} : Within l v → .mode m ∈ v.contains.getD [] →
      Within l m.value
  | variant {v u : Mode} : Within l v → u ∈ v.variants.getD [] → Within l u
  | started {v : Mode} {m : Shared Mode} : Within l v → v.starts = some m → Within l m.value

/-- The modes that are written with an identity, so that they can stand in several places. -/
inductive Written (l : Language) : Shared Mode → Prop
  | named {name : String} {m : Shared Mode} : (name, m) ∈ l.repository.entries → Written l m
  | contained {v : Mode} {m : Shared Mode} : Within l v → .mode m ∈ v.contains.getD [] → Written l m
  | started {v : Mode} {m : Shared Mode} : Within l v → v.starts = some m → Written l m

theorem Written.within (h : Written l m) : Within l m.value := by
  cases h with
  | named hm => exact .named hm
  | contained hv hm => exact .contained hv hm
  | started hv hm => exact .started hv hm

/-- The words that the identities of the compiler's own modes begin with. -/
def ownWords : List String := ["variant", "next", "led"]

/-- **What is written under one identity is one mode**, and no identity is like one that the compiler
    makes. -/
structure WellNamed (l : Language) : Prop where
  unique : ∀ m m', Written l m → Written l m' → m.id = m'.id → m.value = m'.value
  unlike : ∀ m word i rest, Written l m → m.id = (word, i) :: rest → word ∉ ownWords

/-! ## 2. What the compiler makes -/

/-- The place that a key stands for in the identities of what is made for its mode. -/
def placeOf (key : Option Key) : Identity := (key.map Key.place).getD [("root", 0)]

theorem placeOf_injective {key key' : Option Key} (h : placeOf key = placeOf key') : key = key' := by
  have hsome : ∀ k : Key, placeOf (some k) ≠ placeOf none := by
    rintro ⟨id, _ | t⟩ heq
    · simp [placeOf, Key.place] at heq
    · simp [placeOf, Key.place] at heq
  cases key with
  | none =>
    cases key' with
    | none => rfl
    | some k' => exact absurd h.symm (hsome k')
  | some k =>
    cases key' with
    | none => exact absurd h (hsome k)
    | some k' =>
      obtain ⟨id, _ | t⟩ := k <;> obtain ⟨id', _ | t'⟩ := k' <;>
        simp_all [placeOf, Key.place]

/-- The mode that comes after a lead-in, before it ends the mode around it as well. -/
def ledMode (m : Mode) : Mode := { m with beforeMatch := none, endsParent := some true }

/-- The mode that a lead-in starts. -/
def nextMode (place : Identity) (m : Mode) : Mode where
  relevance := some 0
  contains := some [.mode ⟨("led", 0) :: place, ledMode m⟩]

/-- **What an identity stands for**: a written mode, a variant of what has a name, or a mode that is
    made where something comes before what has a name, or before the root. -/
inductive Names (l : Language) : Identity → Mode → Prop
  | written {id : Identity} {v : Mode} {m : Shared Mode} : Written l m → id = m.id → v = m.value →
      Names l id v
  | variant {id id' : Identity} {v v' u : Mode} {vs : List Mode} {i : Nat} : Names l id' v' →
      v'.variants = some vs → vs[i]? = some u → u.variants = none → id = ("variant", i) :: id' →
      v = ({ v' with variants := none } : Mode).inherit u → Names l id v
  | next {id : Identity} {v raw m : Mode} {key : Option Key} :
      (∀ k, key = some k → Names l k.id raw) → (key = none → raw = l.mode) →
      spelled raw = .ok m → m.beforeMatch.isSome = true → m.starts = none →
      id = ("next", 0) :: placeOf key → v = nextMode (placeOf key) m → Names l id v
  | led {id : Identity} {v raw m : Mode} {key : Option Key} :
      (∀ k, key = some k → Names l k.id raw) → (key = none → raw = l.mode) →
      spelled raw = .ok m → m.beforeMatch.isSome = true → m.starts = none →
      id = ("led", 0) :: placeOf key → v = ledMode m → Names l id v

theorem not_written_of_ownWord (hw : WellNamed l) {word : String} {i : Nat} {rest : Identity}
    (hid : id = (word, i) :: rest) (hword : word ∈ ownWords) (hm : Written l m) : id ≠ m.id :=
  fun heq => hw.unlike m word i rest hm (heq ▸ hid) hword

/-- A place is made for one mode. -/
theorem spelled_unique {key key' : Option Key} {raw' m m' : Mode} (hplace : placeOf key = placeOf key')
    (hone : ∀ k, key = some k → ∀ {v' : Mode}, Names l k.id v' → raw = v')
    (hroot : key = none → raw = l.mode) (hraw' : ∀ k, key' = some k → Names l k.id raw')
    (hroot' : key' = none → raw' = l.mode) (hm : spelled raw = .ok m) (hm' : spelled raw' = .ok m') :
    m = m' := by
  have hkey := placeOf_injective hplace
  subst hkey
  have hsame : raw = raw' := by
    cases hkey : key with
    | none => rw [hroot hkey, hroot' hkey]
    | some k => exact hone k hkey (hraw' k hkey)
  subst hsame
  exact Except.ok.inj (hm.symm.trans hm')

/-- **An identity stands for one mode.** -/
theorem names_unique (hw : WellNamed l) (h : Names l id v) (h' : Names l id v') : v = v' := by
  induction h generalizing v' with
  | written hm hid hv =>
    cases h' with
    | written hm' hid' hv' => rw [hv, hv', hw.unique _ _ hm hm' (hid.symm.trans hid')]
    | variant _ _ _ _ hid' _ =>
      exact absurd hid (not_written_of_ownWord hw hid' (by decide) hm)
    | next _ _ _ _ _ hid' _ =>
      exact absurd hid (not_written_of_ownWord hw hid' (by decide) hm)
    | led _ _ _ _ _ hid' _ =>
      exact absurd hid (not_written_of_ownWord hw hid' (by decide) hm)
  | variant _ hvs hu _ hid hv ih =>
    cases h' with
    | written hm' hid' _ =>
      exact absurd hid' (not_written_of_ownWord hw hid (by decide) hm')
    | variant hv0' hvs' hu' _ hid' hv' =>
      obtain ⟨hi, hid0⟩ : _ = _ ∧ _ = _ := by simpa using hid.symm.trans hid'
      subst hi hid0
      cases ih hv0'
      cases hvs.symm.trans hvs'
      cases hu.symm.trans hu'
      rw [hv, hv']
    | next _ _ _ _ _ hid' _ => simp [hid] at hid'
    | led _ _ _ _ _ hid' _ => simp [hid] at hid'
  | next hraw hroot hm _ _ hid hv ih =>
    cases h' with
    | written hm' hid' _ =>
      exact absurd hid' (not_written_of_ownWord hw hid (by decide) hm')
    | variant _ _ _ _ hid' _ => simp [hid] at hid'
    | next hraw' hroot' hm' _ _ hid' hv' =>
      obtain hplace : placeOf _ = placeOf _ := by simpa using hid.symm.trans hid'
      rw [hv, hv', hplace, spelled_unique hplace ih hroot hraw' hroot' hm hm']
    | led _ _ _ _ _ hid' _ => simp [hid] at hid'
  | led hraw hroot hm _ _ hid hv ih =>
    cases h' with
    | written hm' hid' _ =>
      exact absurd hid' (not_written_of_ownWord hw hid (by decide) hm')
    | variant _ _ _ _ hid' _ => simp [hid] at hid'
    | next _ _ _ _ _ hid' _ => simp [hid] at hid'
    | led hraw' hroot' hm' _ _ hid' hv' =>
      obtain hplace : placeOf _ = placeOf _ := by simpa using hid.symm.trans hid'
      rw [hv, hv', spelled_unique hplace ih hroot hraw' hroot' hm hm']

/-! ## 3. What a named mode refers to -/

/-- What a mode refers to has a name: what it starts is written, and so is what it contains, but for
    the mode behind a lead-in. -/
structure Refers (l : Language) (v : Mode) : Prop where
  contains : ∀ m, .mode m ∈ v.contains.getD [] →
    Names l m.id m.value ∧ (Written l m ∨ ∃ place, m.id = ("led", 0) :: place)
  starts : ∀ m, v.starts = some m → Written l m

theorem Within.refers (h : Within l v) : Refers l v where
  contains := fun _ hm => ⟨.written (.contained h hm) rfl rfl, .inl (.contained h hm)⟩
  starts := fun _ hm => .started h hm

/-- Only the links of a mode bear on what it refers to. -/
theorem Refers.congr (h : Refers l v) (hlinks : linksOf v' = linksOf v) : Refers l v' where
  contains := fun m hm => by
    have hcontains : v'.contains = v.contains := congrArg Links.contains hlinks
    exact h.contains m (hcontains ▸ hm)
  starts := fun m hm => by
    have hstarts : v'.starts = v.starts := congrArg Links.starts hlinks
    exact h.starts m (hstarts ▸ hm)

/-- A mode laid over another one refers to what the two refer to. -/
theorem Refers.inherit {u : Mode} (h : Refers l v) (hu : Refers l u) : Refers l (v.inherit u) where
  contains := fun m hm => by
    have hmem : .mode m ∈ (u.contains <|> v.contains).getD [] := hm
    cases hcontains : u.contains with
    | none =>
      rw [hcontains] at hmem
      exact h.contains m hmem
    | some cs =>
      rw [hcontains] at hmem
      refine hu.contains m ?_
      rw [hcontains]
      exact hmem
  starts := fun m hm => by
    have hsome : (u.starts <|> v.starts) = some m := hm
    cases hstarts : u.starts with
    | none =>
      rw [hstarts] at hsome
      exact h.starts m hsome
    | some m' =>
      rw [hstarts] at hsome
      exact hu.starts m (hstarts.trans hsome)

/-- **What a named mode refers to has a name**, and so has what its variants refer to. -/
theorem refers_of_names (h : Names l id v) : Refers l v ∧ ∀ u ∈ v.variants.getD [], Refers l u := by
  induction h with
  | written hm _ hv =>
    rw [hv]
    exact ⟨hm.within.refers, fun u hu => (Within.variant hm.within hu).refers⟩
  | @variant id id' v v' u vs i _ hvs hu hnone _ hv ih =>
    have hmem : u ∈ v'.variants.getD [] := by
      rw [hvs]
      exact List.mem_of_getElem? hu
    have hbase : Refers l ({ v' with variants := none } : Mode) := ih.1.congr rfl
    have hvariants : v.variants = none := by
      rw [hv]
      show (u.variants <|> none) = none
      rw [hnone]
      rfl
    rw [hvariants]
    exact ⟨hv ▸ hbase.inherit (ih.2 u hmem), fun u' hu' => by cases hu'⟩
  | @next id v raw m key hraw hroot hm hbefore hstarts _ hv _ =>
    subst hv
    refine ⟨⟨fun m' hm' => ?_, fun m' hm' => by cases hm'⟩, fun u hu => by cases hu⟩
    cases List.mem_singleton.mp hm'
    exact ⟨.led hraw hroot hm hbefore hstarts rfl rfl, .inr ⟨_, rfl⟩⟩
  | @led id v raw m key hraw hroot hm _ _ _ hv ih =>
    have hrefers : Refers l raw ∧ ∀ u ∈ raw.variants.getD [], Refers l u := by
      cases hkey : key with
      | none =>
        rw [hroot hkey]
        exact ⟨Within.root.refers, fun u hu => (Within.variant .root hu).refers⟩
      | some k => exact ih k hkey
    obtain ⟨hlinks, _, hvariants⟩ := links_spelled hm
    subst hv
    refine ⟨hrefers.1.congr hlinks, fun u hu => hrefers.2 u ?_⟩
    rw [← hvariants]
    exact hu

/-! ## 4. Entries -/

/-- A variant has the identity and the fields that are made for it. -/
theorem mem_expandVariants {vs : List Mode} {ms : List (Shared Mode)} {s : Shared Mode}
    (h : expandVariants m vs = .ok ms) (hs : s ∈ ms) : ∃ i u, vs[i]? = some u ∧ u.variants = none ∧
      s = ⟨("variant", i) :: m.id, ({ m.value with variants := none } : Mode).inherit u⟩ := by
  obtain ⟨⟨u, i⟩, hu, hmade⟩ := exists_of_mem_mapM h hs
  refine ⟨i, u, List.mk_mem_zipIdx_iff_getElem?.mp hu, ?_⟩
  simp only at hmade
  split at hmade
  · cases hmade
  · rename_i hnone
    cases hmade
    exact ⟨by simpa using hnone, rfl⟩

theorem names_of_expanded {ms : List (Shared Mode)} {s : Shared Mode} (hm : Names l m.id m.value)
    (h : expanded m = .ok ms) (hs : s ∈ ms) :
    Names l s.id s.value ∧ (s = m ∨ ∃ i rest, s.id = ("variant", i) :: rest) := by
  unfold expanded at h
  split at h
  · cases h
    rw [List.mem_singleton.mp hs]
    exact ⟨hm, .inl rfl⟩
  · rename_i vs hvs
    obtain ⟨i, u, hu, hnone, rfl⟩ := mem_expandVariants h hs
    exact ⟨.variant hm hvs hu hnone rfl rfl, .inr ⟨i, _, rfl⟩⟩

/-- The identity of what the lead-in of the root starts. -/
def rootNext : Identity := ("next", 0) :: placeOf none

/-- The modes that the compiler knows an identity by: only what the lead-in of the root starts has no
    mode around it. -/
def Knows (l : Language) (inside : Bool) (id : Identity) (v : Mode) : Prop :=
  Names l id v ∧ (inside = false ↔ id = rootNext)

/-- What has a name apart from that of a lead-in's next mode is inside another mode. -/
theorem knows_inside (h : Names l id v) (hid : ∀ place, id ≠ ("next", 0) :: place) :
    Knows l true id v := ⟨h, ⟨fun h => (by cases h), fun heq => absurd heq (hid _)⟩⟩

theorem not_next_of_written (hw : WellNamed l) (hm : Written l m) (place : Identity) :
    m.id ≠ ("next", 0) :: place := fun heq => hw.unlike m _ _ _ hm heq (by decide)

/-- What a mode that is admitted refers to has a name. -/
theorem refers_of_admitted {parent : Option Parent} {key : Option Key}
    (h : Admitted l (Knows l) parent raw key) : Refers l raw ∧ ∀ k, key = some k → Names l k.id raw := by
  cases key with
  | none => exact ⟨h.2 ▸ Within.root.refers, fun k hk => by cases hk⟩
  | some k =>
    refine ⟨(refers_of_names h.1.1).1, fun k' hk' => ?_⟩
    cases hk'
    exact h.1.1

/-- The entries of a mode have names, and not that of a lead-in's next mode. -/
theorem knows_of_entryOf (hw : WellNamed l) (hrefers : Refers l raw) {c : Contained Mode}
    (hc : c ∈ raw.contains.getD []) {es : List (Option (Shared Mode))} {s : Shared Mode}
    (hes : entryOf l.repository c = .ok es) (hs : some s ∈ es) : Knows l true s.id s.value := by
  have hexpanded : ∀ m : Shared Mode, Names l m.id m.value →
      (∀ place, m.id ≠ ("next", 0) :: place) → (expanded m).map (·.map some) = .ok es →
      Knows l true s.id s.value := by
    intro m hm hnext hmap
    cases hms : expanded m with
    | error e =>
      rw [hms] at hmap
      cases hmap
    | ok ms =>
      rw [hms] at hmap
      cases hmap
      obtain ⟨s', hs', heq⟩ := List.mem_map.mp hs
      cases heq
      obtain ⟨hnames, rfl | ⟨i, rest, hid⟩⟩ := names_of_expanded hm hms hs'
      · exact knows_inside hnames hnext
      · refine knows_inside hnames fun place heq => ?_
        rw [hid] at heq
        simp at heq
  cases c with
  | self =>
    cases hes
    cases List.mem_singleton.mp hs
  | named name =>
    unfold entryOf at hes
    split at hes
    · rename_i heq
      cases heq
    · rename_i name' heq
      cases heq
      split at hes
      · cases hes
      · rename_i m hm
        have hwritten : Written l m := .named (mem_of_valueOf? hm)
        exact hexpanded m (.written hwritten rfl rfl) (not_next_of_written hw hwritten) hes
    · rename_i heq
      cases heq
  | mode m =>
    obtain ⟨hnames, hplace⟩ := hrefers.contains m hc
    refine hexpanded m hnames (fun place heq => ?_) hes
    rcases hplace with hwritten | ⟨place', hled⟩
    · exact not_next_of_written hw hwritten place heq
    · rw [hled] at heq
      simp at heq

/-- What starts a mode where none is around it is the lead-in of the root. -/
theorem starts_next (hw : WellNamed l) (h : Names l rootNext raw) :
    raw.starts = none ∧ raw.beforeMatch = none := by
  cases h with
  | written hm hid _ => exact absurd hid.symm (not_next_of_written hw hm _)
  | variant _ _ _ _ hid _ => simp [rootNext] at hid
  | next _ _ _ _ _ _ hv =>
    rw [hv]
    exact ⟨rfl, rfl⟩
  | led _ _ _ _ _ hid _ => simp [rootNext] at hid

/-- **What a mode refers to has a name again**, and a mode around it. -/
theorem passes_names (hw : WellNamed l) (hext : l.extensions = []) (hroot : l.mode.starts = none) :
    Passes l (Knows l) where
  contains := by
    intro parent key raw p c es s hadmitted hparts hc hes hs
    have hprepare := prepare_of_compileParts hparts
    rw [hext] at hprepare
    obtain ⟨m, _, ⟨_, hlinks⟩ | ⟨before, _, _, hlinks⟩⟩ := links_prepare hprepare
    · have hcontains : p.prepared.mode.contains = raw.contains := congrArg Links.contains hlinks
      rw [hcontains] at hc
      exact knows_of_entryOf hw (refers_of_admitted hadmitted).1 hc hes hs
    · have hcontains : p.prepared.mode.contains = none := congrArg Links.contains hlinks
      rw [hcontains] at hc
      cases hc
  starts := by
    intro parent key raw p s hadmitted hparts hs
    obtain ⟨hrefers, hnames⟩ := refers_of_admitted hadmitted
    -- A mode without one around it is the root, or what the lead-in of the root starts.
    have houter : parent.isSome = false → key = none ∧ raw = l.mode ∨
        raw.starts = none ∧ raw.beforeMatch = none := by
      intro hparent
      cases key with
      | none => exact .inl ⟨rfl, hadmitted.2⟩
      | some k =>
        have hnext : k.id = rootNext := hadmitted.1.2.mp hparent
        exact .inr (starts_next hw (hnext ▸ hadmitted.1.1))
    have hprepare := prepare_of_compileParts hparts
    rw [hext] at hprepare
    obtain ⟨m, hm, ⟨_, hlinks⟩ | ⟨before, hbefore, hstarts, hlinks⟩⟩ := links_prepare hprepare
    · have hstarts : raw.starts = some s := (congrArg Links.starts hlinks).symm.trans hs
      have hwritten := hrefers.starts s hstarts
      refine ⟨.written hwritten rfl rfl, fun hparent => ?_,
        fun heq => absurd heq (not_next_of_written hw hwritten _)⟩
      rcases houter hparent with ⟨_, rfl⟩ | ⟨hnone, _⟩
      · cases hroot.symm.trans hstarts
      · cases hnone.symm.trans hstarts
    · have hnext : some (⟨("next", 0) :: placeOf key, nextMode (placeOf key) m⟩ : Shared Mode) =
          some s := (congrArg Links.starts hlinks).symm.trans hs
      cases hnext
      have hsome : m.beforeMatch.isSome = true := by rw [hbefore]; rfl
      refine ⟨.next hnames (fun hkey => ?_) hm hsome hstarts rfl rfl, fun hparent => ?_, fun heq => ?_⟩
      · subst hkey
        exact hadmitted.2
      · rcases houter hparent with ⟨rfl, _⟩ | ⟨_, hnone⟩
        · rfl
        · rw [← (links_spelled hm).2.1, hbefore] at hnone
          cases hnone
      · have hkey : key = none := placeOf_injective (by simpa [rootNext] using heq)
        subst hkey
        rw [hadmitted.1]
        rfl

end Highlight.Arena
