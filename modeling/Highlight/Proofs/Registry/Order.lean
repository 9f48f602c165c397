import Highlight.Proofs.Dictionaries
import Highlight.Proofs.Registry.Changes

/-!
# Languages registered in another order

Registering a language writes to two tables: the language under its name, and the further names that
it declares. Languages that share neither write to different places, so it does not matter which of
them is registered first.

* `Arena.ApartFrom` -- that two languages share neither their names nor those that they declare;
* `registerAliases_comm`, `withArena_comm` -- what is written under different names;
* `Change.Independent`, `afterAll_perm` -- any number of registrations, in any order;
* `registrations_in_either_order` -- the result, for two of them.
-/

namespace Highlight

/-- **That two languages share no name**: neither their own ones, nor the further ones that they
    declare, in any letter case. -/
structure Arena.ApartFrom (arena arena' : Arena) : Prop where
  names : arena.name ≠ arena'.name
  aliases : ∀ a ∈ arena.aliases, ∀ a' ∈ arena'.aliases, Text.lowered a ≠ Text.lowered a'

theorem Arena.ApartFrom.symm {arena arena' : Arena} (ha : arena.ApartFrom arena') :
    arena'.ApartFrom arena where
  names := ha.names.symm
  aliases a' ha' a hmem := (ha.aliases a hmem a' ha').symm

namespace Highlighter

variable {h : Highlighter} {arena arena' : Arena} {rest rest' : Supply} {c c' : Change}
  {changes changes' : List Change}

/-! ## 1. What is written under different names -/

/-- The table of further names, with some for a language. -/
def aliasesWith (d : Dictionary String String) (aliases : List String) (language : String) :
    Dictionary String String :=
  aliases.foldl (fun d a => d.insert (Text.lowered a) (Text.lowered language)) d

theorem registerAliases_eq (h : Highlighter) (aliases : List String) (language : String) :
    h.registerAliases aliases language =
      { h with aliases := aliasesWith h.aliases aliases language } := rfl

/-- A further name may be recorded before others or after them. -/
theorem aliasesWith_insert {a v language : String} {aliases : List String}
    (hnew : ∀ b ∈ aliases, a ≠ Text.lowered b) (d : Dictionary String String) :
    aliasesWith (d.insert a v) aliases language = (aliasesWith d aliases language).insert a v := by
  induction aliases generalizing d with
  | nil => rfl
  | cons b aliases ih =>
    obtain ⟨hb, hnew⟩ := List.forall_mem_cons.mp hnew
    show aliasesWith ((d.insert a v).insert (Text.lowered b) _) aliases language = _
    rw [Dictionary.insert_comm hb, ih hnew]
    rfl

/-- The further names of two languages may be recorded in either order. -/
theorem aliasesWith_comm {aliases aliases' : List String} {language language' : String}
    (hapart : ∀ a ∈ aliases, ∀ a' ∈ aliases', Text.lowered a ≠ Text.lowered a')
    (d : Dictionary String String) :
    aliasesWith (aliasesWith d aliases language) aliases' language' =
      aliasesWith (aliasesWith d aliases' language') aliases language := by
  induction aliases generalizing d with
  | nil => rfl
  | cons a aliases ih =>
    obtain ⟨ha, hapart⟩ := List.forall_mem_cons.mp hapart
    show aliasesWith (aliasesWith (d.insert (Text.lowered a) _) aliases language) _ _ =
      aliasesWith ((aliasesWith d aliases' language').insert (Text.lowered a) _) aliases language
    rw [ih hapart, aliasesWith_insert ha]

/-- Languages that share no name may be added in either order. -/
theorem withArena_comm (ha : arena.ApartFrom arena') :
    (h.withArena arena rest).withArena arena' rest' =
      (h.withArena arena' rest').withArena arena rest := by
  simp only [withArena, registerAliases_eq, Dictionary.insert_comm ha.names,
    aliasesWith_comm ha.aliases]

/-! ## 2. Any number of registrations -/

/-- **That two changes register languages that share no name.** -/
def Change.Independent (c c' : Change) : Prop :=
  ∃ arena arena', c.registers? = some arena ∧ c'.registers? = some arena' ∧ arena.ApartFrom arena'

theorem Change.Independent.symm (hi : c.Independent c') : c'.Independent c := by
  obtain ⟨arena, arena', hc, hc', ha⟩ := hi
  exact ⟨arena', arena, hc', hc, ha.symm⟩

theorem after_comm (h : Highlighter) (hi : c.Independent c') :
    (h.after c).after c' = (h.after c').after c := by
  obtain ⟨arena, arena', hc, hc', ha⟩ := hi
  obtain ⟨rest, hafter⟩ := after_of_registers hc
  obtain ⟨rest', hafter'⟩ := after_of_registers hc'
  rw [hafter, hafter', hafter', hafter, withArena_comm ha]

/-- **Any number of registrations may be made in any order**, if no two of the languages share a
    name. -/
theorem afterAll_perm (hp : changes.Perm changes') (hi : changes.Pairwise Change.Independent)
    (h : Highlighter) : h.afterAll changes = h.afterAll changes' := by
  induction hp generalizing h with
  | nil => rfl
  | cons c _ ih => exact ih hi.of_cons (h.after c)
  | swap c c' changes =>
    have hcc' : c'.Independent c := List.rel_of_pairwise_cons hi List.mem_cons_self
    simp only [afterAll_cons, after_comm h hcc']
  | trans hp _ ih ih' =>
    have hi' := (hp.pairwise_iff fun hcc' => Change.Independent.symm hcc').mp hi
    rw [ih hi, ih' hi']

/-! ## 3. The result -/

/-- **Two registrations may be made in either order.** If the names of the languages differ, and
    none of the further names that they declare is the same in lower case, the highlighter that
    comes of them is the same, and with it every answer that it gives. Both languages are there. -/
theorem registrations_in_either_order (h : Highlighter) (hc : c.registers? = some arena)
    (hc' : c'.registers? = some arena') (ha : arena.ApartFrom arena') :
    h.afterAll [c, c'] = h.afterAll [c', c] ∧
      (h.afterAll [c, c']).language? arena.name = some arena ∧
      (h.afterAll [c, c']).language? arena'.name = some arena' := by
  have hi : Change.Independent c c' := ⟨arena, arena', hc, hc', ha⟩
  refine ⟨afterAll_perm (.swap c' c []) (List.pairwise_pair.mpr hi) h, ?_, ?_⟩
  · rw [afterAll_cons, afterAll_cons, afterAll_nil, after_comm h hi]
    exact language?_of_registers (h.after c') hc
  · exact language?_of_registers (h.after c) hc'

/-- A language with a further name. -/
def lowNamed : Change := .register "Base" (.constant { aliases := ["Low"] })

/-- A language that extends another one by a further name of that. -/
def highNamed : Change :=
  .register "Extended" (.constant { aliases := ["High"], supersetOf := some "LOW" })

/-- A language may be registered before one that it extends. -/
theorem extended_language_before_its_base : ∃ arena arena', lowNamed.registers? = some arena ∧
    highNamed.registers? = some arena' ∧ arena.ApartFrom arena' ∧
    ((new {}).afterAll [highNamed, lowNamed]).canonicalName "lOw" = some "base" ∧
    (new {}).afterAll [lowNamed, highNamed] = (new {}).afterAll [highNamed, lowNamed] := by
  have hcheck : (lowNamed.registers?.any fun arena => highNamed.registers?.any fun arena' =>
      arena.name != arena'.name && arena.aliases.all fun a => arena'.aliases.all fun a' =>
        Text.lowered a != Text.lowered a') = true := by decide +kernel
  obtain ⟨arena, hc, hcheck⟩ := (Option.any_eq_true _ _).mp hcheck
  obtain ⟨arena', hc', hcheck⟩ := (Option.any_eq_true _ _).mp hcheck
  simp only [Bool.and_eq_true, bne_iff_ne, List.all_eq_true] at hcheck
  have ha : arena.ApartFrom arena' := ⟨hcheck.1, hcheck.2⟩
  exact ⟨arena, arena', hc, hc', ha, by decide +kernel,
    (registrations_in_either_order (new {}) hc hc' ha).1⟩

end Highlighter

end Highlight
