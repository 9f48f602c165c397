import Highlight.Proofs.Scan.Guard
import Highlight.Proofs.Scan.KeptText

/-!
# Text that is told again

A delimiter that is to be read again is left where it stands, and is told when it has been read again.
A mode that is skipped, that leaves its delimiter outside or that labels its end tells it or holds it
back nevertheless; then it is told once more. Nothing else makes a run tell more than the text.

* `told_of_next` -- what one round adds;
* `RetellsIn` -- a round that tells some text again;
* `tally_reached` -- how much a run has told before each round;
* `told_iff_never_retells` -- **a completed run has told the text if and only if no round tells any of
  it again**.
-/

namespace Highlight.Scan

open Highlight.Arena (RuleMatch Undisturbed)
open Highlight.Grammar (HookNote)
open Highlight.Token (textsOf)

variable {s : Scene} {r r' : Run} {m : RuleMatch} {continuation : Option (List Nat)} {n first : Nat}
  {notes : List HookNote}

theorem retells_atRule : Retells s m (r.atRule first) ↔ Retells s m r := by
  constructor
  · rintro (⟨hkind, hopens, hretells⟩ | ⟨hkind, hempty, hanswer, hretells⟩)
    · exact .begins hkind hopens hretells
    · exact .ends hkind hempty hanswer hretells
  · rintro (⟨hkind, hopens, hretells⟩ | ⟨hkind, hempty, hanswer, hretells⟩)
    · exact .begins hkind hopens hretells
    · exact .ends hkind hempty hanswer hretells

/-- **A round tells some text again**: the delimiter that it handles is not empty, and is told or held
    back though it is left to be read again. -/
def RetellsIn (s : Scene) (continuation : Option (List Nat)) (n : Nat) : Prop :=
  ∃ r m first notes r', Reached s continuation n r ∧ lookUp s r = .ok (some m, first) ∧
    turn s (n + 1) r = .next notes r' ∧ Retells s m r ∧ lexeme s m ≠ ""

section Rounds

variable (hkeeps : Keeps s) (hparts : PlainParts s.arena)
  (hundisturbed : ∀ id, Undisturbed (s.arena.mode id)) (htiles : TilesParts s.arena)

include hkeeps hparts hundisturbed htiles

/-- **What a round adds**: the text up to where it leads; and a delimiter that is told though it is
    left, so that the run goes on before what it has told. -/
theorem told_of_handled (hl : lookUp s r = .ok (some m, first))
    (hstep : step s m (r.atRule first) = ⟨notes, .ok r'⟩) :
    r.index ≤ m.span.start ∧ m.span.start ≤ r'.index ∧
    (¬ Retells s m r → r'.kept = r.kept ++ s.text.slice r.index r'.index) ∧
    (Retells s m r → r'.index = m.span.start ∧
      r'.kept = r.kept ++ s.text.slice r.index m.span.start ++ lexeme s m) := by
  have hfinds := Arena.finds_next hl
  have hsteps := (steps_step (r := r.atRule first) hfinds.from_le hfinds.ordered).1 r' (by rw [hstep])
  have htold := told_of_steps hkeeps hparts hundisturbed (r := r.atRule first) hfinds.from_le
    hfinds.ordered (htiles _ _ _ _ _ _ hl) hsteps
  rw [retells_atRule] at htold
  exact ⟨hfinds.from_le, htold⟩

/-- **How much a run has told**: the text up to the next character, as long as no round has told any of
    it again; and more than that after such a round. -/
theorem tally_reached (hr : Reached s continuation n r) : r.index ≤ s.text.size ∧
    ((∀ k < n, ¬ RetellsIn s continuation k) → r.kept = s.text.slice 0 r.index) ∧
    r.index ≤ r.kept.length ∧ ((∃ k < n, RetellsIn s continuation k) → r.index < r.kept.length) := by
  induction hr with
  | start =>
    obtain ⟨hkept, hindex⟩ := kept_initial (s := s) continuation
    rw [hindex]
    exact ⟨Nat.zero_le _, fun _ => hkept, Nat.zero_le _, fun ⟨k, hk, _⟩ => absurd hk (Nat.not_lt_zero k)⟩
  | @next n r r' notes hr hturn ih =>
    obtain ⟨hsize, hnever, hle, honce⟩ := ih
    obtain ⟨m, first, hl, hstep, _, hsize'⟩ := turn_next hturn
    obtain ⟨hfrom, hon, hplain, hagain⟩ :=
      told_of_handled hkeeps hparts hundisturbed htiles hl hstep
    have hbefore : (∃ k < n + 1, RetellsIn s continuation k) →
        (∃ k < n, RetellsIn s continuation k) ∨ RetellsIn s continuation n := by
      rintro ⟨k, hk, hretells⟩
      rcases Nat.lt_succ_iff_lt_or_eq.mp hk with hlt | rfl
      · exact .inl ⟨k, hlt, hretells⟩
      · exact .inr hretells
    by_cases hretells : Retells s m r
    · obtain ⟨hindex, hkept⟩ := hagain hretells
      have hstop := (Arena.finds_next hl).stop_le
      have hordered := (Arena.finds_next hl).ordered
      have hlength : r'.kept.length = r.kept.length + (m.span.start - r.index) +
          (m.span.stop - m.span.start) := by
        rw [hkept, String.length_append, String.length_append, lexeme,
          Text.length_slice _ (Nat.le_trans hordered hstop), Text.length_slice _ hstop]
      have hlexeme : lexeme s m = "" ↔ m.span.start = m.span.stop := by
        rw [← String.length_eq_zero_iff, lexeme, Text.length_slice _ hstop]
        omega
      refine ⟨hsize', fun hnot => ?_, by omega, fun hsome => ?_⟩
      · have hempty : lexeme s m = "" := by
          by_contra hne
          exact hnot n (Nat.lt_succ_self n) ⟨r, m, first, notes, r', hr, hl, hturn, hretells, hne⟩
        rw [hkept, hnever fun k hk => hnot k (Nat.lt_succ_of_lt hk), hempty, String.append_empty,
          Text.slice_append _ (Nat.zero_le _) hfrom, hindex]
      · rcases hbefore hsome with hsome | ⟨r0, m0, _, _, _, hr0, hl0, _, _, hne⟩
        · have := honce hsome
          omega
        · cases reached_unique hr hr0
          cases hl.symm.trans hl0
          have : m.span.start ≠ m.span.stop := fun h => hne (hlexeme.mpr h)
          omega
    · have hkept := hplain hretells
      have hlength : r'.kept.length = r.kept.length + (r'.index - r.index) := by
        rw [hkept, String.length_append, Text.length_slice _ hsize']
      refine ⟨hsize', fun hnot => ?_, by omega, fun hsome => ?_⟩
      · rw [hkept, hnever fun k hk => hnot k (Nat.lt_succ_of_lt hk),
          Text.slice_append _ (Nat.zero_le _) (Nat.le_trans hfrom hon)]
      · rcases hbefore hsome with hsome | ⟨r0, m0, _, _, _, hr0, hl0, _, hretells0, _⟩
        · have := honce hsome
          omega
        · cases reached_unique hr hr0
          cases hl.symm.trans hl0
          exact absurd hretells0 hretells

/-- **A completed run has told the text if and only if no round has told any of it again.** -/
theorem told_iff_never_retells (hdone : (scanAll s continuation).fault = none) :
    textsOf (scanAll s continuation).events = s.text.toStr ↔
      ∀ n, ¬ RetellsIn s continuation n := by
  have hends := ends_scanAll s continuation
  generalize scanAll s continuation = scanned at hends hdone ⊢
  cases hends with
  | broken notes hr hturn => cases hdone
  | @completed n r r' more notes hr hturn =>
    rw [(told_complete hkeeps notes r').1 hdone]
    obtain ⟨hsize, hnever, hle, honce⟩ := tally_reached hkeeps hparts hundisturbed htiles hr
    -- The last round passes the end of the text, so it tells nothing again.
    have hlast : r'.kept ++ s.text.slice r'.index s.text.size =
        r.kept ++ s.text.slice r.index s.text.size := by
      rcases turn_last hturn with ⟨first, _, _, rfl⟩ | ⟨m, first, hl, hstep, hindex⟩
      · rfl
      · obtain ⟨hfrom, hon, hplain, hagain⟩ :=
          told_of_handled hkeeps hparts hundisturbed htiles hl hstep
        have hretells : ¬ Retells s m r := fun h => by
          have hstart := (hagain h).1
          have hfinds := Arena.finds_next hl
          have := Nat.le_trans hfinds.ordered hfinds.stop_le
          omega
        rw [hplain hretells, Text.slice_to_size _ _ (Nat.le_of_lt hindex),
          Text.slice_of_size_le _ (Nat.le_of_lt hindex), String.append_empty]
    have hrounds : (∀ k, ¬ RetellsIn s continuation k) ↔ ∀ k < n, ¬ RetellsIn s continuation k := by
      refine ⟨fun h k _ => h k, fun h k => ?_⟩
      rintro ⟨r0, m, first, notes0, r1, hr0, hl, hturn0, hretells, hne⟩
      have hover : ∀ notes1 r2, turn s (n + 1) r ≠ .next notes1 r2 := fun notes1 r2 hnext => by
        cases hturn.symm.trans hnext
      rcases Nat.lt_or_eq_of_le (le_of_over hr0 hr hover) with hlt | rfl
      · exact h k hlt ⟨r0, m, first, notes0, r1, hr0, hl, hturn0, hretells, hne⟩
      · cases reached_unique hr hr0
        cases hturn.symm.trans hturn0
    rw [hlast, hrounds]
    refine ⟨fun htext k hk hretells => ?_, fun h => ?_⟩
    · have hmore := honce ⟨k, hk, hretells⟩
      have hlength := congrArg String.length htext
      rw [String.length_append, Text.length_slice _ (Nat.le_refl _),
        ← Text.slice_zero_of_size_le _ (Nat.le_refl _), Text.length_slice _ (Nat.le_refl _)] at hlength
      omega
    · rw [hnever h, Text.slice_zero_append]

end Rounds

end Highlight.Scan
