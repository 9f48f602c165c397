import Highlight.Proofs.Pattern.Tokens
import Highlight.Proofs.Pattern.Merged
import Mathlib.Algebra.GroupWithZero.Nat

/-!
# Merging changes numbers only

What merging makes of a pattern, told by its tokens: the numbers of its references grow by how many
groups seem to be opened before it, and every other character stays where it was. So a merged pattern
has the tokens that it had, and patterns that follow change nothing in it.

* `Token.kind`, `Token.move`, `Scanned.text` -- tokens, and a scan read back;
* `text_scan`, `scan_renumbered` -- the scan of a pattern, and of one with its references moved;
* `offsetAt`, `wrapAll_eq_mapIdx`, `wrapAll_append` -- by how much the references of a pattern move;
* `merging_changes_numbers_only` -- the result.
-/

namespace Highlight.Pattern

open Regex

/-! ## 1. Tokens moved -/

/-- What a token is, apart from its text. -/
inductive Kind where
  | cls
  | opening
  | special
  | reference
  | escaped
  deriving DecidableEq, Repr

namespace Token

/-- The kind of a token. -/
def kind (t : Token) : Kind :=
  if t.number.isSome then .reference
  else
    match t.text with
    | '[' :: _ => .cls
    | ['('] => .opening
    | '(' :: _ => .special
    | _ => .escaped

/-- A token with `offset` added to its number, if it has one. -/
def move (offset : Nat) (t : Token) : Token :=
  match t.number with
  | none => t
  | some ds =>
    let moved := Nat.toDigits 10 (Nat.ofDigitChars 10 ds 0 + offset)
    ⟨'\\' :: moved, some moved⟩

/-- A token that is moved stays of its kind. -/
theorem kind_move (offset : Nat) (t : Token) : (t.move offset).kind = t.kind := by
  obtain ⟨text, number⟩ := t
  cases number <;> rfl

end Token

namespace Scanned

variable {offset : Nat} {c : Char} {s : Scanned} {ps : List Piece}

/-- The text that was scanned. -/
def text (s : Scanned) : List Char := s.tokens.flatMap (fun t => t.1 ++ t.2.text) ++ s.tail

/-- The kinds of the tokens, in their order. -/
def kinds (s : Scanned) : List Kind := s.tokens.map fun t => t.2.kind

/-- How many tokens are a bare opening parenthesis. -/
def openings (s : Scanned) : Nat := s.tokens.countP fun t => t.2.text == ['(']

/-- The numbers of the tokens. -/
def numbers (s : Scanned) : List Nat :=
  s.tokens.filterMap fun t => t.2.number.map (Nat.ofDigitChars 10 · 0)

/-- A scan with `offset` added to every number, and nothing else changed. -/
def move (offset : Nat) (s : Scanned) : Scanned :=
  ⟨s.tokens.map fun t => (t.1, t.2.move offset), s.tail⟩

theorem kinds_move (offset : Nat) (s : Scanned) : (s.move offset).kinds = s.kinds := by
  simp only [kinds, move, List.map_map, Function.comp_def, Token.kind_move]

theorem text_cons (c : Char) (s : Scanned) : (s.cons c).text = c :: s.text := by
  obtain ⟨_ | ⟨t, tokens⟩, tail⟩ := s <;> rfl

theorem openings_cons (c : Char) (s : Scanned) : (s.cons c).openings = s.openings := by
  obtain ⟨_ | ⟨t, tokens⟩, tail⟩ := s
  · rfl
  · simp only [openings, cons, List.countP_cons]

theorem numbers_cons (c : Char) (s : Scanned) : (s.cons c).numbers = s.numbers := by
  obtain ⟨_ | ⟨t, tokens⟩, tail⟩ := s <;> rfl

theorem move_cons (offset : Nat) (c : Char) (s : Scanned) :
    (s.cons c).move offset = (s.move offset).cons c := by
  obtain ⟨_ | ⟨t, tokens⟩, tail⟩ := s <;> rfl

/-- Scans by pieces: a plain character goes before what is scanned, and any other piece is a token. -/
theorem ofPieces_cases {P : List Piece → Scanned → Prop} (hnil : P [] ⟨[], []⟩)
    (hplain : ∀ c ps, P ps (ofPieces ps) → P (.plain c :: ps) ((ofPieces ps).cons c))
    (htoken : ∀ p ps, p.isToken = true → P ps (ofPieces ps) →
      P (p :: ps) ⟨([], p.token) :: (ofPieces ps).tokens, (ofPieces ps).tail⟩) :
    ∀ ps, P ps (ofPieces ps)
  | [] => hnil
  | p :: ps => by
      have ih := ofPieces_cases hnil hplain htoken ps
      by_cases hp : p.isToken = true
      · rw [ofPieces_token hp]
        exact htoken p ps hp ih
      · cases p with
        | plain c => exact hplain c ps ih
        | _ => exact absurd rfl hp

theorem text_token (p : Piece) : p.token.text = p.text := by
  cases p <;> rfl

theorem text_ofPieces (ps : List Piece) : (ofPieces ps).text = ps.flatMap Piece.text := by
  refine ofPieces_cases (P := fun ps s => s.text = ps.flatMap Piece.text) rfl ?_ ?_ ps
  · intro c ps ih
    rw [text_cons, ih]
    rfl
  · intro p ps hp ih
    rw [List.flatMap_cons, ← ih, ← text_token p]
    simp only [text, List.flatMap_cons, List.nil_append, List.append_assoc]

theorem openings_ofPieces (ps : List Piece) : (ofPieces ps).openings = Pattern.openings ps := by
  refine ofPieces_cases (P := fun ps s => s.openings = Pattern.openings ps) rfl ?_ ?_ ps
  · intro c ps ih
    rw [openings_cons, ih, Pattern.openings, Pattern.openings, List.countP_cons]
    rfl
  · intro p ps hp ih
    have hsame : (p.token.text == ['(']) = (p == .opening) := by
      cases p <;> first | rfl | cases hp
    rw [Pattern.openings, List.countP_cons, ← hsame, openings, List.countP_cons]
    exact congrArg (· + if (p.token.text == ['(']) = true then 1 else 0) ih

/-- The numbers of a scan are those of the references. -/
theorem mem_numbers_ofPieces {ds : List Char} {ps : List Piece} (h : Piece.reference ds ∈ ps) :
    Nat.ofDigitChars 10 ds 0 ∈ (ofPieces ps).numbers := by
  revert h
  refine ofPieces_cases (P := fun ps s => .reference ds ∈ ps → Nat.ofDigitChars 10 ds 0 ∈ s.numbers)
    (fun h => absurd h List.not_mem_nil) ?_ ?_ ps
  · intro c ps ih h
    rw [numbers_cons]
    exact ih ((List.mem_cons.mp h).resolve_left fun he => by cases he)
  · intro p ps hp ih h
    rcases List.mem_cons.mp h with rfl | h
    · exact List.mem_filterMap.mpr ⟨_, List.mem_cons_self, rfl⟩
    · obtain ⟨t, ht, hn⟩ := List.mem_filterMap.mp (ih h)
      exact List.mem_filterMap.mpr ⟨t, List.mem_cons_of_mem _ ht, hn⟩

/-- The scan of moved pieces, where each reference is read as the number that it writes. -/
theorem ofPieces_shift {ps : List Piece}
    (h : ∀ ds, .reference ds ∈ ps → groupNumber ds = Nat.ofDigitChars 10 ds 0) :
    ofPieces (ps.map (Piece.shift offset)) = (ofPieces ps).move offset := by
  revert h
  refine ofPieces_cases (P := fun ps s =>
    (∀ ds, .reference ds ∈ ps → groupNumber ds = Nat.ofDigitChars 10 ds 0) →
      ofPieces (ps.map (Piece.shift offset)) = s.move offset) (fun _ => rfl) ?_ ?_ ps
  · intro c ps ih h
    rw [move_cons, ← ih fun ds hds => h ds (List.mem_cons_of_mem _ hds)]
    rfl
  · intro p ps hp ih h
    have htoken : (p.shift offset).isToken = true ∧ (p.shift offset).token = p.token.move offset := by
      cases p with
      | plain c => cases hp
      | reference ds =>
        refine ⟨rfl, ?_⟩
        simp only [Piece.shift, Piece.token, Piece.text, Token.move, h ds List.mem_cons_self]
      | _ => exact ⟨rfl, rfl⟩
    rw [List.map_cons, ofPieces_token htoken.1, htoken.2,
      ih fun ds hds => h ds (List.mem_cons_of_mem _ hds)]
    rfl

end Scanned

/-! ## 2. Scans of patterns -/

/-- **The scan of a text is that text**, cut up. -/
theorem text_scan (cs : List Char) : (scan cs).text = cs := by
  rw [scan, Scanned.text_ofPieces, text_pieces]

theorem openings_scan (cs : List Char) : (scan cs).openings = opens cs :=
  Scanned.openings_ofPieces (pieces cs)

/-- The references of a pattern are written in digits. -/
theorem isDigit_of_mem_pieces {cs ds : List Char} (h : Piece.reference ds ∈ pieces cs) :
    ∀ d ∈ ds, d.isDigit = true := by
  induction hn : cs.length using Nat.strongRecOn generalizing cs with
  | ind n ih =>
    cases cs with
    | nil => cases h
    | cons c cs =>
      have hl := length_nextPiece c cs
      simp only [List.length_cons] at hn
      rw [pieces_cons] at h
      rcases List.mem_cons.mp h with h | h
      · exact (digits_of_reference h.symm).2.1
      · exact ih _ (by omega) h rfl

theorem groupNumber_of_isDigit {ds : List Char} (hd : ∀ d ∈ ds, d.isDigit = true)
    (hle : Nat.ofDigitChars 10 ds 0 ≤ Text.maxCount) :
    groupNumber ds = Nat.ofDigitChars 10 ds 0 := by
  unfold groupNumber
  rw [Text.digitsFrom?_digits ds 0 hd, Option.getD_some]
  exact if_pos hle

/-- **A pattern with its references moved scans into its tokens**, with their numbers moved. -/
theorem scan_renumbered {offset : Nat} (hpos : 0 < offset) {cs : List Char}
    (hle : ∀ n ∈ (scan cs).numbers, n ≤ Text.maxCount) :
    scan (renumbered offset cs) = (scan cs).move offset := by
  rw [scan, pieces_renumbered hpos]
  exact Scanned.ofPieces_shift fun ds hds =>
    groupNumber_of_isDigit (isDigit_of_mem_pieces hds) (hle _ (Scanned.mem_numbers_ofPieces hds))

/-- A pattern with its references moved is its own text, but for the numbers. -/
theorem renumbered_eq_text {offset : Nat} (hpos : 0 < offset) {cs : List Char}
    (hle : ∀ n ∈ (scan cs).numbers, n ≤ Text.maxCount) :
    renumbered offset cs = ((scan cs).move offset).text := by
  rw [← scan_renumbered hpos hle, text_scan]

/-! ## 3. Patterns one after another -/

/-- A text in parentheses. -/
def parenthesised (cs : List Char) : String := String.ofList ('(' :: (cs ++ [')']))

/-- By how much the references of a pattern move: by the number of its place, counted from one, and
    by the bare opening parentheses in the patterns before it. -/
def offsetAt (patterns : List String) (i : Nat) : Nat :=
  i + 1 + ((patterns.take i).map fun p => (scan p.toList).openings).sum

/-- What becomes of the pattern in a place. -/
def rewritten (patterns : List String) (i : Nat) (pattern : String) : List Char :=
  ((scan pattern.toList).move (offsetAt patterns i)).text

/-- **That every number still counts groups** when it is moved. -/
def NumbersFit (patterns : List String) : Prop :=
  ∀ (i : Nat) (hi : i < patterns.length), ∀ n ∈ (scan patterns[i].toList).numbers,
    n + offsetAt patterns i ≤ Text.maxCount

instance (patterns : List String) : Decidable (NumbersFit patterns) :=
  inferInstanceAs (Decidable (∀ (i : Nat) (hi : i < patterns.length),
    ∀ n ∈ (scan patterns[i].toList).numbers, n + offsetAt patterns i ≤ Text.maxCount))

/-- Merging moves the references of each pattern by the groups that seem to be opened before it. -/
theorem wrapAll_eq_mapIdx (opened : Nat) (patterns : List String) :
    wrapAll opened patterns = patterns.mapIdx fun i p =>
      parenthesised (renumbered (opened + offsetAt patterns i) p.toList) := by
  induction patterns generalizing opened with
  | nil => rfl
  | cons pattern patterns ih =>
    rw [wrapAll, List.mapIdx_cons]
    refine congrArg₂ List.cons rfl ((ih _).trans ?_)
    refine List.mapIdx_eq_mapIdx_iff.mpr fun i hi => ?_
    rw [offsetAt, offsetAt, List.take_succ_cons, List.map_cons, List.sum_cons, openings_scan]
    refine congrArg (fun n => parenthesised (renumbered n _)) ?_
    show opened + 1 + opens pattern.toList + _ = _
    omega

/-- How many groups seem to be opened by patterns, each in a group of its own. -/
def openedBy (patterns : List String) : Nat := (patterns.map fun p => 1 + opens p.toList).sum

/-- **What is merged of some patterns does not depend on those that follow.** -/
theorem wrapAll_append (opened : Nat) (patterns more : List String) :
    wrapAll opened (patterns ++ more) =
      wrapAll opened patterns ++ wrapAll (opened + openedBy patterns) more := by
  induction patterns generalizing opened with
  | nil => rfl
  | cons pattern patterns ih =>
    have hopened : opened + 1 + opens pattern.toList + openedBy patterns =
        opened + openedBy (pattern :: patterns) := by
      rw [openedBy, openedBy, List.map_cons, List.sum_cons]
      omega
    rw [← hopened]
    exact congrArg (_ :: ·) (ih _)

theorem length_wrapAll (opened : Nat) (patterns : List String) :
    (wrapAll opened patterns).length = patterns.length := by
  rw [wrapAll_eq_mapIdx, List.length_mapIdx]

theorem wrapAll_of_numbersFit {patterns : List String} (h : NumbersFit patterns) :
    wrapAll 0 patterns = patterns.mapIdx fun i p => parenthesised (rewritten patterns i p) := by
  rw [wrapAll_eq_mapIdx]
  refine List.mapIdx_eq_mapIdx_iff.mpr fun i hi => ?_
  rw [Nat.zero_add]
  refine congrArg parenthesised (renumbered_eq_text ?_ fun n hn => ?_)
  · rw [offsetAt]
    omega
  · exact Nat.le_trans (Nat.le_add_right _ _) (h i hi n hn)

/-- **Merging changes the numbers of references and nothing else.** Every text falls into tokens in
    one way only, each the leftmost match in what is left, and nothing of it is lost. Merged patterns
    stand between parentheses, with the separator between them; in each of them, the number of every
    reference has grown by the place of the pattern and the bare opening parentheses before it, and
    all else is as it was. What becomes of a pattern has tokens of the same kinds in the same order;
    and patterns that are added behind the others change nothing in what becomes of these. -/
theorem merging_changes_numbers_only (patterns : List String) (h : NumbersFit patterns) :
    compile tokenPattern false = .ok tokenRegex ∧
    (∀ cs, IsScan cs (scan cs) ∧ (∀ s, IsScan cs s → s = scan cs) ∧ (scan cs).text = cs) ∧
    (∀ separator, merge patterns separator = String.intercalate separator
      (patterns.mapIdx fun i p => parenthesised (rewritten patterns i p))) ∧
    (∀ (i : Nat) (hi : i < patterns.length),
      (scan (rewritten patterns i patterns[i])).kinds = (scan patterns[i].toList).kinds) ∧
    ∀ more : List String, ∃ later : List String, later.length = more.length ∧
      ∀ separator, merge (patterns ++ more) separator = String.intercalate separator
        (patterns.mapIdx (fun i p => parenthesised (rewritten patterns i p)) ++ later) := by
  refine ⟨compile_tokenPattern, fun cs => ?_, fun separator => ?_, fun i hi => ?_, fun more => ?_⟩
  · exact ⟨isScan_scan cs, fun s hs => hs.unique (isScan_scan cs), text_scan cs⟩
  · rw [merge, wrapAll_of_numbersFit h]
  · have hpos : 0 < offsetAt patterns i := by
      rw [offsetAt]
      omega
    have hle : ∀ n ∈ (scan patterns[i].toList).numbers, n ≤ Text.maxCount := fun n hn =>
      Nat.le_trans (Nat.le_add_right _ _) (h i hi n hn)
    rw [rewritten, ← renumbered_eq_text hpos hle, scan_renumbered hpos hle, Scanned.kinds_move]
  · refine ⟨wrapAll (0 + openedBy patterns) more, length_wrapAll _ _, fun separator => ?_⟩
    rw [merge, wrapAll_append, wrapAll_of_numbersFit h]

/-- Two patterns, each with a reference to its last group. -/
theorem pair_changes_numbers_only :
    NumbersFit ["(a)\\1", "(b)(c)\\2"] ∧
    merge ["(a)\\1", "(b)(c)\\2"] "|" = "((a)\\2)|((b)(c)\\5)" ∧
    (scan "(b)(c)\\5".toList).kinds = [.opening, .opening, .reference] := by
  have hfit : NumbersFit ["(a)\\1", "(b)(c)\\2"] := by decide +kernel
  obtain ⟨-, -, hmerge, hkinds, -⟩ := merging_changes_numbers_only _ hfit
  refine ⟨hfit, (hmerge "|").trans (by decide +kernel), ?_⟩
  have hsecond := hkinds 1 (by decide)
  have htext : rewritten ["(a)\\1", "(b)(c)\\2"] 1 ["(a)\\1", "(b)(c)\\2"][1] =
      "(b)(c)\\5".toList := by decide +kernel
  rw [htext] at hsecond
  exact hsecond.trans (by decide +kernel)

end Highlight.Pattern
