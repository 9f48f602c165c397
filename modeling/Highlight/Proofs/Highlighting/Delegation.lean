import Highlight.Proofs.Highlighting.Asking
import Highlight.Proofs.Highlighting.KeptText
import Highlight.Proofs.Registry.Changes
import Highlight.Proofs.Registry.Registered

/-!
# How deep runs lie inside one another

Languages may hand text to one another, and to themselves. Nothing in a run keeps count of it.

* `Hands` -- one run hands text to another;
* `Bounded` -- how deep runs lie inside one another is bounded;
* `bounded_iff_hands`, `no_chain_of_bounded`, `chain_of_unbounded` -- it is so exactly where no chain
  of runs goes on without end;
* `handed_piece` -- the text that is handed on is a piece of that of the run;
* `cycle_of_path` -- a long chain of runs comes to one that is handed on to itself;
* `nesting_is_bounded_iff` -- when runs come to an end.
-/

namespace Highlight.Highlighter

open Highlight.Grammar (Language)
open Highlight.Scan (Attempt ReadsOnce)
open Relation (TransGen)

variable {h : Highlighter} {c c' : Call}

/-! ## 1. Chains of runs -/

/-- **A run hands text to another**: far enough down, it waits for it. -/
def Hands (h : Highlighter) (c c' : Call) : Prop :=
  ∃ depth, Waits (fun R => Runner.at (h.runIn R) c) (h.runAt depth) c'

/-- **A run leads to another** by handing text on, any number of times. -/
inductive LeadsTo (h : Highlighter) (c : Call) : Call → Prop
  | itself : LeadsTo h c c
  | hands {a b : Call} : LeadsTo h c a → h.Hands a b → LeadsTo h c b

/-- **How deep runs lie inside a run is bounded**: some depth is enough for it. -/
def Bounded (h : Highlighter) (c : Call) : Prop := ∃ depth, Live ((h.runAt depth).at c)

/-- A runner that reaches further answers as before wherever there was an answer. -/
theorem extends_runAt (h : Highlighter) : ∀ {d e : Nat}, d ≤ e → Extends (h.runAt d) (h.runAt e)
  | 0, _, _ => fun _ hlive => absurd ⟨rfl, rfl⟩ (hlive (.unplaced .endlessDelegation))
  | _ + 1, _ + 1, hle => fun c hlive =>
      (h.asks_runIn c).stable (extends_runAt h (Nat.le_of_succ_le_succ hle)) hlive

/-- **A run whose nesting is bounded comes to the same at any greater depth.** -/
theorem answer_runAt {d e : Nat} (hle : d ≤ e) (hlive : Live ((h.runAt d).at c)) :
    (h.runAt e).at c = (h.runAt d).at c := extends_runAt h hle c hlive

section Questions

variable {β : Type} [Faulty β] {Q : Call → Prop} {P : β → Prop} {F : Runner → β}

/-- What asks has an end at some depth only where every call that it waits for is bounded. -/
theorem bounded_of_waits (hF : Asks Q P F) {d e : Nat} (hlive : Live (F (h.runAt d)))
    (hw : Waits F (h.runAt e) c') : Live ((h.runAt d).at c') := by
  have hw' := hF.waits_extends (extends_runAt h (Nat.le_max_right d e)) hw
  exact hF.live_of_waits (extends_runAt h (Nat.le_max_left d e)) hlive hw'

/-- **What asks has an end at some depth exactly where every call that it waits for is bounded.** -/
theorem live_iff_waits (hF : Asks Q P F) : (∃ d, Live (F (h.runAt d))) ↔
    ∀ c', (∃ d, Waits F (h.runAt d) c') → h.Bounded c' := by
  refine ⟨fun ⟨d, hlive⟩ c' ⟨e, hw⟩ => ⟨d, bounded_of_waits hF hlive hw⟩, fun hall => ?_⟩
  induction hF with
  | settled _ hlive => exact ⟨0, hlive⟩
  | @ask c k _ hnext hk ih =>
    -- The first call is waited for at any depth, so its answer is there at some depth.
    obtain ⟨d, hd⟩ := hall c ⟨0, waits_first hk (h.runAt 0)⟩
    obtain ⟨e, he⟩ := ih _ hd fun c' hw => by
      obtain ⟨e, hw⟩ := hw
      by_cases heq : c = c'
      · exact heq ▸ ⟨d, hd⟩
      · refine hall c' ⟨max d e, (waits_next heq).mpr ?_⟩
        rw [answer_runAt (Nat.le_max_left d e) hd]
        exact (hnext _ hd).waits_extends (extends_runAt h (Nat.le_max_right d e)) hw
    refine ⟨max d e, ?_⟩
    show Live (k ((h.runAt (max d e)).at c) _)
    rw [answer_runAt (Nat.le_max_left d e) hd,
      (hnext _ hd).stable (extends_runAt h (Nat.le_max_right d e)) he]
    exact he

end Questions

/-- What a run of bounded depth hands on is handed on at least one level further down. -/
theorem live_of_hands {d : Nat} (hlive : Live ((h.runAt (d + 1)).at c)) (hc : h.Hands c c') :
    Live ((h.runAt d).at c') := by
  obtain ⟨e, hw⟩ := hc
  exact bounded_of_waits (h.asks_runIn c) hlive hw

/-- **The nesting of a run is bounded exactly where that of every run is that it hands text to.** -/
theorem bounded_iff_hands : h.Bounded c ↔ ∀ c', h.Hands c c' → h.Bounded c' := by
  rw [show (∀ c', h.Hands c c' → h.Bounded c') ↔ _ from (live_iff_waits (h.asks_runIn c)).symm]
  constructor
  · rintro ⟨d, hlive⟩
    cases d with
    | zero => exact absurd ⟨rfl, rfl⟩ (hlive (.unplaced .endlessDelegation))
    | succ d => exact ⟨d, hlive⟩
  · rintro ⟨d, hlive⟩
    exact ⟨d + 1, hlive⟩

theorem not_live_zero : ¬ Live ((h.runAt 0).at c) :=
  fun hlive => hlive (.unplaced .endlessDelegation) ⟨rfl, rfl⟩

/-- No chain of runs goes on without end from one whose nesting is bounded. -/
theorem no_chain_of_bounded (hc : h.Bounded c) :
    ¬ ∃ chain : Nat → Call, chain 0 = c ∧ ∀ n, h.Hands (chain n) (chain (n + 1)) := by
  obtain ⟨d, hlive⟩ := hc
  induction d generalizing c with
  | zero => exact absurd hlive not_live_zero
  | succ d ih =>
    rintro ⟨chain, rfl, hchain⟩
    exact ih (live_of_hands hlive (hchain 0)) ⟨fun n => chain (n + 1), rfl, fun n => hchain (n + 1)⟩

/-- What comes of something step by step. -/
def stepping {α : Type} (next : α → α) (a : α) : Nat → α
  | 0 => a
  | n + 1 => next (stepping next a n)

/-- From a run whose nesting has no bound a chain of runs goes on without end. -/
theorem chain_of_unbounded (hc : ¬ h.Bounded c) :
    ∃ chain : Nat → Call, chain 0 = c ∧ ∀ n, h.Hands (chain n) (chain (n + 1)) := by
  have hnext : ∀ x : {c // ¬ h.Bounded c}, ∃ y : {c // ¬ h.Bounded c}, h.Hands x.1 y.1 := by
    rintro ⟨x, hx⟩
    rw [bounded_iff_hands] at hx
    obtain ⟨y, hy⟩ := Classical.not_forall.mp hx
    obtain ⟨hxy, hy⟩ := Classical.not_imp.mp hy
    exact ⟨⟨y, hy⟩, hxy⟩
  obtain ⟨next, hnext⟩ := Classical.axiomOfChoice hnext
  exact ⟨fun n => (stepping next ⟨c, hc⟩ n).1, rfl, fun n => hnext _⟩

/-! ## 2. Chains that come back -/

/-- A run of bounded depth leads to runs of less depth only. -/
theorem live_of_transGen {d : Nat} (hlive : Live ((h.runAt d).at c))
    (hc : TransGen h.Hands c c') : ∃ e, e < d ∧ Live ((h.runAt e).at c') := by
  induction hc with
  | single hc =>
    cases d with
    | zero => exact absurd hlive not_live_zero
    | succ d => exact ⟨d, Nat.lt_succ_self d, live_of_hands hlive hc⟩
  | tail _ hc ih =>
    obtain ⟨e, he, hlive'⟩ := ih
    cases e with
    | zero => exact absurd hlive' not_live_zero
    | succ e => exact ⟨e, Nat.lt_of_succ_lt he, live_of_hands hlive' hc⟩

/-- A run whose nesting is bounded is not handed on to itself. -/
theorem no_cycle_of_bounded (hc : h.Bounded c) : ¬ TransGen h.Hands c c := by
  obtain ⟨d, hlive⟩ := hc
  induction d using Nat.strongRecOn with
  | ind d ih =>
    intro hcycle
    obtain ⟨e, he, hlive'⟩ := live_of_transGen hlive hcycle
    exact ih e he hlive' hcycle

theorem bounded_of_leadsTo (hc : h.Bounded c) (hr : h.LeadsTo c c') : h.Bounded c' := by
  induction hr with
  | itself => exact hc
  | hands _ hh ih => exact bounded_iff_hands.mp ih _ hh

/-- A run that leads to one that hands text to it is handed on to itself. -/
theorem LeadsTo.comesBack (hr : h.LeadsTo c c') (hc : h.Hands c' c) : TransGen h.Hands c c := by
  have hmore : ∀ {a : Call}, h.LeadsTo c a → ∀ {b : Call}, h.Hands a b → TransGen h.Hands c b := by
    intro a ha
    induction ha with
    | itself => exact fun hb => .single hb
    | hands _ hh ih => exact fun hb => .tail (ih hh) hb
  exact hmore hr hc

/-- A run that some depth is not enough for begins a chain of that many runs. -/
theorem path_of_not_live {d : Nat} (hc : ¬ Live ((h.runAt d).at c)) :
    ∃ p : Nat → Call, p 0 = c ∧ ∀ i < d, h.Hands (p i) (p (i + 1)) := by
  induction d generalizing c with
  | zero => exact ⟨fun _ => c, rfl, fun i hi => absurd hi (Nat.not_lt_zero i)⟩
  | succ d ih =>
    obtain ⟨f, hf⟩ := (live_or_stuck _).resolve_left hc
    have hstuck : Stuck (Runner.at (h.runIn (h.runAt d)) c) f := hf
    obtain ⟨c', hc', hw⟩ := (h.asks_runIn c).waits_of_stuck hstuck
    obtain ⟨p, hp0, hp⟩ := ih fun hlive => hlive f hc'
    refine ⟨fun i => if i = 0 then c else p (i - 1), rfl, fun i hi => ?_⟩
    cases i with
    | zero =>
      show h.Hands c (p 0)
      rw [hp0]
      exact ⟨d, hw⟩
    | succ i => exact hp i (Nat.lt_of_succ_lt_succ hi)

/-! ## 3. The text that is handed on -/

/-- All languages hold no delimiter back that is read again. -/
def ReadOnce (h : Highlighter) : Prop := h.AllRegistered ReadsOnce

/-- **The text that is handed on is a piece of that of the run**: it is not longer, and where it is as
    long it is the same, in modes that have not been set before. -/
theorem handed_piece (hreads : h.ReadOnce) (hc : h.Hands c c') :
    0 < c'.code.length ∧ c'.code.length ≤ c.code.length ∧
      (c'.code.length = c.code.length → c'.code = c.code ∧ c'.continuation = none) := by
  obtain ⟨d, hw⟩ := hc
  obtain ⟨arena, hl, hmay⟩ := (h.asks_runIn c).of_waits hw
  obtain ⟨i, j, hcode, hfresh⟩ := hmay.piece (hreads.language? hl)
  have hlist : c'.code.toList = (c.code.toList.take j).drop i := by
    rw [hcode, Text.toList_slice]
    show ((Text.ofString c.code).toList.take j).drop i = _
    rw [Text.ofString]
  have hlength : c'.code.length = min j c.code.length - i := by
    rw [← String.length_toList, hlist, List.length_drop, List.length_take, String.length_toList]
  have hpos : 0 < c'.code.length := by
    refine Nat.pos_of_ne_zero fun h0 => hmay.nonempty ?_
    rw [← String.length_toList] at h0
    exact String.toList_eq_nil_iff.mp (List.eq_nil_of_length_eq_zero h0)
  refine ⟨hpos, by omega, fun hsame => ?_⟩
  have hi : i = 0 := by omega
  have hj : c.code.length ≤ j := by omega
  refine ⟨String.toList_inj.mp ?_, hfresh hi⟩
  rw [hlist, hi, List.drop_zero, List.take_of_length_le (by rw [String.length_toList]; exact hj)]

/-- The language of a run that is handed on is registered. -/
theorem canonicalName_of_hands (hc : h.Hands c c') :
    ∃ canonical, h.canonicalName c'.name = some canonical := by
  obtain ⟨d, hw⟩ := hc
  obtain ⟨_, _, hmay⟩ := (h.asks_runIn c).of_waits hw
  obtain ⟨arena, hl⟩ := hmay.registered
  obtain ⟨canonical, hcanonical, _⟩ := Option.bind_eq_some_iff.mp hl
  exact ⟨canonical, hcanonical⟩

/-- What a run hands on depends on its language, by whatever name, its text and how it begins. -/
theorem hands_congr {x y : Call} (hname : h.canonicalName x.name = h.canonicalName y.name)
    (hcode : x.code = y.code) (hignore : x.ignoreIllegals = y.ignoreIllegals)
    (hcontinuation : x.continuation = y.continuation) (hx : h.Hands x c') : h.Hands y c' := by
  obtain ⟨d, hw⟩ := hx
  obtain ⟨arena, hlx, _⟩ := (h.asks_runIn x).of_waits hw
  have hly : h.language? y.name = some arena := by
    unfold language? at hlx ⊢
    rw [← hname]
    exact hlx
  have heq : (fun R => Runner.at (h.runIn R) x) = fun R => Runner.at (h.runIn R) y := by
    funext R
    unfold Runner.at runIn
    rw [hcode, hignore, hcontinuation, hlx, hly]
  rw [heq] at hw
  exact ⟨d, hw⟩

section Path

variable {d i j : Nat} {p : Nat → Call}

/-- Along a chain of runs texts do not grow; as long as they do not shrink they stay what they are. -/
theorem piece_of_path (hreads : h.ReadOnce) (hp : ∀ i < d, h.Hands (p i) (p (i + 1))) (hij : i ≤ j)
    (hj : j ≤ d) :
    (p j).code.length ≤ (p i).code.length ∧
      ((p j).code.length = (p i).code.length →
        (p j).code = (p i).code ∧ (i < j → (p j).continuation = none)) := by
  induction j with
  | zero =>
    obtain rfl : i = 0 := by omega
    exact ⟨Nat.le_refl _, fun _ => ⟨rfl, fun h0 => absurd h0 (Nat.lt_irrefl 0)⟩⟩
  | succ j ih =>
    rcases Nat.lt_or_eq_of_le hij with hlt | rfl
    · obtain ⟨hle, hsame⟩ := ih (Nat.le_of_lt_succ hlt) (Nat.le_of_succ_le hj)
      obtain ⟨_, hle', hsame'⟩ := handed_piece hreads (hp j hj)
      refine ⟨Nat.le_trans hle' hle, fun heq => ?_⟩
      obtain ⟨hcode, hfresh⟩ := hsame' (by omega)
      exact ⟨hcode.trans (hsame (by omega)).1, fun _ => hfresh⟩
    · exact ⟨Nat.le_refl _, fun _ => ⟨rfl, fun h0 => absurd h0 (Nat.lt_irrefl _)⟩⟩

theorem leadsTo_of_path (hp : ∀ i < d, h.Hands (p i) (p (i + 1))) (hij : i ≤ j) (hj : j ≤ d) :
    h.LeadsTo (p i) (p j) := by
  induction j with
  | zero =>
    obtain rfl : i = 0 := by omega
    exact .itself
  | succ j ih =>
    rcases Nat.lt_or_eq_of_le hij with hlt | rfl
    · exact .hands (ih (Nat.le_of_lt_succ hlt) (Nat.le_of_succ_le hj)) (hp j hj)
    · exact .itself

/-- What tells runs over texts of one length apart: the language and whether what is forbidden is
    ignored. Only the first of them begins in modes that have been set before. -/
def kindOf (h : Highlighter) (c : Call) : Option (String × Bool) :=
  if c.continuation = none then (h.canonicalName c.name).map fun name => (name, c.ignoreIllegals)
  else none

/-- The kinds that there are. -/
def kinds (h : Highlighter) : List (Option (String × Bool)) :=
  none :: h.registered.keys.flatMap fun name => [some (name, true), some (name, false)]

/-- The lengths and kinds that runs can have that are handed a piece of a text. -/
def sorts (h : Highlighter) (length : Nat) : List (Nat × Option (String × Bool)) :=
  (List.range length).flatMap fun n => h.kinds.map fun kind => (n + 1, kind)

theorem length_flatMap_of_length {α β : Type} {f : α → List β} {k : Nat}
    (hf : ∀ a, (f a).length = k) (l : List α) : (l.flatMap f).length = l.length * k := by
  induction l with
  | nil => exact (Nat.zero_mul k).symm
  | cons a l ih => rw [List.flatMap_cons, List.length_append, ih, hf, List.length_cons,
      Nat.succ_mul, Nat.add_comm]

theorem length_sorts (h : Highlighter) (length : Nat) :
    (h.sorts length).length = length * (2 * h.registered.size + 1) := by
  have hkinds : h.kinds.length = 2 * h.registered.size + 1 := by
    unfold kinds
    rw [List.length_cons, length_flatMap_of_length (k := 2) fun _ => rfl, Nat.mul_comm]
    show 2 * (h.registered.entries.map (·.1)).length + 1 = _
    rw [List.length_map]
    rfl
  unfold sorts
  rw [length_flatMap_of_length fun n => List.length_map .., List.length_range, hkinds]

theorem mem_sorts {n length : Nat} {kind : Option (String × Bool)} (hpos : 0 < n)
    (hle : n ≤ length) (hkind : kind ∈ h.kinds) : (n, kind) ∈ h.sorts length := by
  refine List.mem_flatMap.mpr ⟨n - 1, List.mem_range.mpr (by omega), ?_⟩
  exact List.mem_map.mpr ⟨kind, hkind, by rw [Nat.sub_add_cancel hpos]⟩

theorem kindOf_mem_kinds (h : Highlighter) (c : Call) : h.kindOf c ∈ h.kinds := by
  unfold kindOf
  split
  · cases hname : h.canonicalName c.name with
    | none => exact List.mem_cons_self
    | some canonical =>
      refine List.mem_cons_of_mem none (List.mem_flatMap.mpr
        ⟨canonical, (mem_of_canonicalName hname).1, ?_⟩)
      cases c.ignoreIllegals with
      | true => exact List.mem_cons_self
      | false => exact List.mem_cons_of_mem _ List.mem_cons_self
  · exact List.mem_cons_self

/-- More places than there are values to take have one value twice. -/
theorem exists_again {α : Type} {f : Nat → α} {l : List α} (hd : l.length < d)
    (hf : ∀ i, 0 < i → i ≤ d → f i ∈ l) : ∃ i j, i < j ∧ j ≤ d ∧ f i = f j := by
  refine Classical.byContradiction fun hno => ?_
  have hnodup : ((List.range d).map fun i => f (i + 1)).Nodup := by
    rw [List.Nodup, List.pairwise_map]
    refine List.Pairwise.imp_of_mem (fun {i j} _ hj hij heq => ?_) List.pairwise_lt_range
    exact hno ⟨i + 1, j + 1, Nat.succ_lt_succ hij, List.mem_range.mp hj, heq⟩
  have hsub : ((List.range d).map fun i => f (i + 1)) ⊆ l := by
    intro x hx
    obtain ⟨i, hi, rfl⟩ := List.mem_map.mp hx
    exact hf (i + 1) (Nat.succ_pos i) (List.mem_range.mp hi)
  have hle := hnodup.length_le_of_subset hsub
  rw [List.length_map, List.length_range] at hle
  omega

/-- Of two runs of a chain with the same length and kind the later one hands on what the earlier one
    does. -/
theorem hands_again (hreads : h.ReadOnce) (hp : ∀ i < d, h.Hands (p i) (p (i + 1))) (hij : i < j)
    (hj : j ≤ d) (hlength : (p i).code.length = (p j).code.length)
    (hkind : h.kindOf (p i) = h.kindOf (p j)) (hi : h.Hands (p i) c') : h.Hands (p j) c' := by
  obtain ⟨hcode, hfresh⟩ := (piece_of_path hreads hp (Nat.le_of_lt hij) hj).2 hlength.symm
  have hnone := hfresh hij
  obtain ⟨canonical, hcanonical⟩ : ∃ canonical, h.canonicalName (p j).name = some canonical := by
    have hlast := hp (j - 1) (by omega)
    rw [Nat.sub_add_cancel (by omega)] at hlast
    exact canonicalName_of_hands hlast
  have hkindj : h.kindOf (p j) = some (canonical, (p j).ignoreIllegals) := by
    unfold kindOf
    rw [if_pos hnone, hcanonical]
    rfl
  rw [hkindj] at hkind
  unfold kindOf at hkind
  split at hkind
  · rename_i hnonei
    obtain ⟨name, hname, heq⟩ := Option.map_eq_some_iff.mp hkind
    obtain ⟨rfl, hignore⟩ := Prod.mk.inj heq
    exact hands_congr (hname.trans hcanonical.symm) hcode.symm hignore (hnonei.trans hnone.symm) hi
  · cases hkind

/-- **A long chain of runs comes to one that is handed on to itself**: there are not more lengths and
    kinds than runs in it. -/
theorem cycle_of_path (hreads : h.ReadOnce) (hp : ∀ i < d, h.Hands (p i) (p (i + 1)))
    (hd : (p 0).code.length * (2 * h.registered.size + 1) < d) :
    ∃ c, h.LeadsTo (p 0) c ∧ TransGen h.Hands c c := by
  rw [← length_sorts] at hd
  obtain ⟨i, j, hij, hj, hsort⟩ :=
    exists_again (f := fun i => ((p i).code.length, h.kindOf (p i))) hd fun i hi hid => by
      have hpos : 0 < (p i).code.length := by
        have hlast := (handed_piece hreads (hp (i - 1) (by omega))).1
        rw [Nat.sub_add_cancel hi] at hlast
        exact hlast
      exact mem_sorts hpos (piece_of_path hreads hp (Nat.zero_le i) hid).1
        (kindOf_mem_kinds h (p i))
  obtain ⟨hlength, hkind⟩ := Prod.mk.inj hsort
  refine ⟨p (i + 1), leadsTo_of_path hp (Nat.zero_le _) (by omega), ?_⟩
  refine (leadsTo_of_path hp hij hj).comesBack ?_
  exact hands_again hreads hp hij hj hlength hkind (hp i (by omega))

end Path

/-! ## 4. Runs that come to an end -/

/-- **Where no run is handed on to itself, runs lie as deep inside one another as is foreseen at
    most.** -/
theorem live_of_no_cycle (hreads : h.ReadOnce)
    (hc : ∀ c', h.LeadsTo c c' → ¬ TransGen h.Hands c' c') :
    Live ((h.runAt (h.depthFor c.code)).at c) := by
  refine (live_or_stuck _).resolve_right fun ⟨f, hf⟩ => ?_
  obtain ⟨p, hp0, hp⟩ := path_of_not_live fun hlive => hlive f hf
  have hd : (p 0).code.length * (2 * h.registered.size + 1) < h.depthFor c.code := by
    rw [hp0]
    unfold depthFor
    refine Nat.lt_of_le_of_lt (Nat.mul_le_mul_left _ (Nat.le_succ _)) ?_
    exact Nat.mul_lt_mul_of_pos_right (by omega) (by omega)
  obtain ⟨c', hreach, hcycle⟩ := cycle_of_path hreads hp hd
  rw [hp0] at hreach
  exact hc c' hreach hcycle

/-- **A run whose nesting is bounded at all is so at the depth that is foreseen.** -/
theorem bounded_iff_live (hreads : h.ReadOnce) :
    h.Bounded c ↔ Live ((h.runAt (h.depthFor c.code)).at c) := by
  refine ⟨fun hc => live_of_no_cycle hreads fun c' hr => ?_, fun hlive => ⟨_, hlive⟩⟩
  exact no_cycle_of_bounded (bounded_of_leadsTo hc hr)

/-- A detection as a function of the runner that it puts its questions to. -/
def detecting (h : Highlighter) (candidates : Option (List String)) (code : String) (run : Runner) :
    Attempt Detection :=
  h.detect (fun name => run name code false none) candidates code

theorem asks_detecting (h : Highlighter) (candidates : Option (List String)) (code : String) :
    AsksFor (fun c => c.code = code) (fun _ => True) (h.detecting candidates code) :=
  asks_detect candidates fun _ _ => rfl

/-- **A detection hands its text to a run**: far enough down, it waits for it. -/
def DetectionHands (h : Highlighter) (candidates : Option (List String)) (code : String)
    (c : Call) : Prop :=
  ∃ depth, Waits (h.detecting candidates code) (h.runAt depth) c

theorem live_highlightAuto_iff (hreads : h.ReadOnce) (candidates : Option (List String))
    (code : String) : Live (h.highlightAuto code candidates) ↔
      ∀ c, h.DetectionHands candidates code c → h.Bounded c := by
  have hasks := asks_detecting h candidates code
  constructor
  · exact fun hlive => (live_iff_waits hasks).mp ⟨h.depthFor code, hlive⟩
  · intro hall
    refine (live_or_stuck _).resolve_right fun ⟨f, hf⟩ => ?_
    have hstuck : Stuck (h.detecting candidates code (h.runAt (h.depthFor code))) f := hf
    obtain ⟨c, hc, hw⟩ := hasks.waits_of_stuck hstuck
    have hlive := (bounded_iff_live hreads).mp (hall c ⟨_, hw⟩)
    have hcode : c.code = code := hasks.of_waits hw
    rw [hcode] at hlive
    exact hlive f hc

/-- **When runs come to an end.** How deep runs lie inside one another is bounded exactly where no
    chain of runs hands text on without end. Where all languages read their delimiters once, this is
    so exactly where no run on the way is handed on to itself, and then the depth that is foreseen is
    enough. A detection comes to an end exactly where the runs do that it hands its text to. -/
theorem nesting_is_bounded_iff (h : Highlighter) (c : Call) (candidates : Option (List String)) :
    (h.Bounded c ↔
      ¬ ∃ chain : Nat → Call, chain 0 = c ∧ ∀ n, h.Hands (chain n) (chain (n + 1))) ∧
    ((∃ depth, Live (h.detecting candidates c.code (h.runAt depth))) ↔
      ∀ c', h.DetectionHands candidates c.code c' → h.Bounded c') ∧
    (h.ReadOnce →
      (h.Bounded c ↔ ∀ c', h.LeadsTo c c' → ¬ TransGen h.Hands c' c') ∧
      (h.Bounded c ↔ Live (h.highlight c.name c.code c.ignoreIllegals c.continuation)) ∧
      ((∀ c', h.DetectionHands candidates c.code c' → h.Bounded c') ↔
        Live (h.highlightAuto c.code candidates))) := by
  refine ⟨⟨no_chain_of_bounded, fun hno => Classical.byContradiction fun hc =>
    hno (chain_of_unbounded hc)⟩, live_iff_waits (asks_detecting h candidates c.code),
    fun hreads => ⟨⟨fun hc c' hr => ?_, fun hno => ⟨_, live_of_no_cycle hreads hno⟩⟩,
      bounded_iff_live hreads, (live_highlightAuto_iff hreads candidates c.code).symm⟩⟩
  exact no_cycle_of_bounded (bounded_of_leadsTo hc hr)

/-- Languages without flags read their delimiters once. -/
theorem readOnce_of_allPlain (hplain : allPlain h = true) : h.ReadOnce := by
  have hmode : ∀ e ∈ h.registered.entries, ∀ id, (e.2.arena.mode id).returnBegin = false ∧
      (e.2.arena.mode id).returnEnd = false := by
    intro e he id
    have hm := isPlain_mode (List.all_eq_true.mp hplain e he) id
    simp only [isPlain, Bool.and_eq_true, Bool.not_eq_true'] at hm
    exact ⟨hm.1.1.1.1.1, hm.1.1.1.1.2⟩
  intro e he
  constructor
  · intro id hreturn
    rw [(hmode e he id).1] at hreturn
    cases hreturn
  · intro id hreturn
    rw [(hmode e he id).2] at hreturn
    cases hreturn

/-- A language that hands all of its text to the language with a name. -/
def handingLanguage (name : String) : Language where
  mode := { subLanguage := some (.single name) }

/-- **A language that hands its text to itself does so without end**, at whatever depth. -/
theorem nesting_without_bound : ∃ h, (new {}).register "l" (.constant (handingLanguage "l")) = .ok h ∧
    ¬ h.Bounded ⟨"l", "ab", false, none⟩ := by
  have hcheck : passes ((new {}).register "l" (.constant (handingLanguage "l"))) (fun h =>
      allPlain h && (Faulty.fault? (h.highlight "l" "ab" false none)).any fun f =>
        f.cause == .endlessDelegation) = true := by decide +kernel
  obtain ⟨h, hh, hcheck⟩ := exists_of_passes hcheck
  obtain ⟨hplain, hrun⟩ := Bool.and_eq_true_iff.mp hcheck
  obtain ⟨f, hf, hcause⟩ := (Option.any_eq_true _ _).mp hrun
  refine ⟨h, hh, fun hbounded => ?_⟩
  have hlive := (bounded_iff_live (readOnce_of_allPlain hplain)).mp hbounded
  exact hlive f ⟨hf, by simpa using hcause⟩

/-- Runs in the language of texts between angle brackets, with that of texts in quotes inside, do not
    come back to themselves. -/
theorem nesting_in_brackets_is_bounded : ∃ h : Highlighter,
    withBrackets quotedLanguage = .ok h ∧ h.ReadOnce ∧
    ∀ c', h.LeadsTo ⟨"outer", "a <b \"c> d", false, none⟩ c' →
      ¬ TransGen h.Hands c' c' := by
  have hcheck : passes (withBrackets quotedLanguage) (fun h =>
      allPlain h && passes (h.highlight "outer" "a <b \"c> d" false none).result fun _ => true) =
      true := by decide +kernel
  obtain ⟨h, hh, hcheck⟩ := exists_of_passes hcheck
  obtain ⟨hplain, hrun⟩ := Bool.and_eq_true_iff.mp hcheck
  have hreads := readOnce_of_allPlain hplain
  refine ⟨h, hh, hreads, ?_⟩
  obtain ⟨hcycle, hlive, _⟩ :=
    (nesting_is_bounded_iff h ⟨"outer", "a <b \"c> d", false, none⟩ none).2.2 hreads
  obtain ⟨o, ho, _⟩ := exists_of_passes hrun
  exact hcycle.mp (hlive.mpr (live_of_ok ho))

end Highlight.Highlighter
