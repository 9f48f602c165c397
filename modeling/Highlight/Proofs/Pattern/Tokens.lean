import Highlight.Proofs.Pattern.Renumbered
import Highlight.Pattern.Combine

/-!
# The tokens of a pattern

Patterns are cut into pieces without an engine. What is cut off are the matches of a pattern, one
behind the other: each time the leftmost one in what is left. The engine itself is run on that
pattern here, on any text, and what it finds is held against the pieces.

* `tokenPattern`, `compile_tokenPattern` -- the pattern, and what it means;
* `matchFrom_piece` -- what is found where a piece begins;
* `firstPiece?`, `firstFrom_token` -- the leftmost match is the first piece that is no character;
* `nextToken?`, `IsScan` -- tokens by matches, one behind the other;
* `scan`, `isScan_scan` -- the scan that a text has, by its pieces.
-/

namespace Highlight.Pattern

open Regex

/-! ## 1. The pattern that finds tokens -/

/-- What is looked for in the text of a pattern: a bracketed class, the opening of a group with its
    question mark, a numbered reference, or another escape. -/
def tokenPattern : String := "\\[(?:[^\\\\\\]]|\\\\.)*\\]|\\(\\??|\\\\([1-9][0-9]*)|\\\\."

/-- A member of a class: a character other than the backslash and the closing bracket, or a backslash
    and a character that is no newline. -/
def memberNode : Node :=
  .alt (.set ⟨.union (.union .empty (.single '\\')) (.single ']'), true, false⟩)
    (.seq (.text ['\\']) (.set ⟨.compl (.single '\n'), false, false⟩))

/-- A class. -/
def classNode : Node :=
  .seq (.text ['[']) (.seq (.loop 0 none false false .never memberNode) (.text [']']))

/-- The opening of a group. -/
def openingNode : Node :=
  .seq (.text ['(']) (.loop 0 (some 1) false false .never (.text ['?']))

/-- A number that does not begin with zero. -/
def numberNode : Node :=
  .seq (.set ⟨.union .empty (.range '1' '9'), false, false⟩)
    (.loop 0 none false false .never (.set ⟨.union .empty (.range '0' '9'), false, false⟩))

/-- A numbered reference, the number of which is remembered. -/
def referenceNode : Node := .seq (.text ['\\']) (.group 1 true numberNode)

/-- Any escape, but for that of a newline. -/
def escapeNode : Node := .seq (.text ['\\']) (.set ⟨.compl (.single '\n'), false, false⟩)

/-- What finds the tokens. -/
def tokenRegex : Regex :=
  ⟨.alt classNode (.alt openingNode (.alt referenceNode escapeNode)), 1⟩

theorem compile_tokenPattern : compile tokenPattern false = .ok tokenRegex := by
  have h : (compile tokenPattern false).toOption = some tokenRegex := by decide +kernel
  cases hc : compile tokenPattern false with
  | error e => rw [hc] at h; cases h
  | ok r => rw [hc] at h; cases h; rfl

/-! ## 2. Where tokens begin -/

section Runs

variable {text : Text} {origin : Nat} {p : Place} {c : Char} {cs : List Char}

/-- What stands in a text from an index on. -/
def From (text : Text) (i : Nat) (cs : List Char) : Prop := text.toList.drop i = cs

theorem From.getElem? {i : Nat} (h : From text i cs) : text[i]? = cs.head? := by
  rw [← h, List.head?_drop, Array.getElem?_toList]

theorem From.next {i : Nat} (h : From text i (c :: cs)) : From text (i + 1) cs := by
  unfold From at h ⊢
  rw [← List.drop_drop, h]
  rfl

theorem From.length_le {i : Nat} (h : From text i (c :: cs)) : cs.length + 1 + i = text.size := by
  have hl := congrArg List.length (h : text.toList.drop i = c :: cs)
  simp only [List.length_drop, Array.length_toList, List.length_cons] at hl
  omega

theorem run_char (h : From text p.pos cs) (d : Char) (k : Rest) :
    (Node.text [d]).run text origin p k = if cs.head? = some d then k (p.move 1) else none := by
  simp only [Node.run, standsAt, h.getElem?, Bool.and_true, beq_iff_eq]
  rfl

theorem run_set (h : From text p.pos cs) (t : CharTest) (k : Rest) :
    (Node.set t).run text origin p k =
      if cs.head?.any t.accepts then k (p.move 1) else none := by
  simp only [Node.run, h.getElem?]
  cases cs with
  | nil => rfl
  | cons c cs => rfl

theorem has_single (c d : Char) : (CharSet.single d).has c = (c == d) := by
  rw [Bool.eq_iff_iff]
  simp only [CharSet.single, CharSet.has, Bool.and_eq_true, decide_eq_true_eq, beq_iff_eq]
  exact ⟨fun h => Char.le_antisymm h.2 h.1, fun h => by subst h; exact ⟨Char.le_refl c, Char.le_refl c⟩⟩

theorem accepts_other :
    (⟨.compl (.single '\n'), false, false⟩ : CharTest).accepts = (· != '\n') := by
  funext c
  simp [CharTest.accepts, CharSet.has, has_single, bne]

theorem accepts_member :
    (⟨.union (.union .empty (.single '\\')) (.single ']'), true, false⟩ : CharTest).accepts =
      fun c => c != '\\' && c != ']' := by
  funext c
  simp [CharTest.accepts, CharSet.has, has_single, bne]

theorem accepts_range (first last : Char) :
    (⟨.union .empty (.range first last), false, false⟩ : CharTest).accepts =
      fun c => decide (first ≤ c) && decide (c ≤ last) := by
  funext c
  simp [CharTest.accepts, CharSet.has]

/-- A backslash, and a character that passes a test. -/
theorem run_escape (h : From text p.pos cs) (t : CharTest) (k : Rest) :
    (Node.seq (.text ['\\']) (.set t)).run text origin p k =
      if cs.head? = some '\\' ∧ cs.tail.head?.any t.accepts then k (p.move 2) else none := by
  rw [Node.run, run_char h]
  cases cs with
  | nil => rfl
  | cons c cs =>
    by_cases hc : c = '\\'
    · rw [if_pos (by simp [hc]), run_set (p := p.move 1) h.next]
      simp only [List.head?_cons, hc, true_and, List.tail_cons]
      rfl
    · rw [if_neg (by simpa using hc), if_neg (by simp [hc])]

/-- One more member of a class. -/
theorem run_member (h : From text p.pos (c :: cs)) (k : Rest) :
    memberNode.run text origin p k =
      if c = '\\' then if cs.head?.any (· != '\n') then k (p.move 2) else none
      else if c = ']' then none else k (p.move 1) := by
  rw [memberNode, Node.run, run_set h, run_escape h, accepts_member, accepts_other]
  simp only [List.head?_cons, Option.any_some, Option.some.injEq, List.tail_cons]
  by_cases hc : c = '\\'
  · simp [hc]
  · by_cases hb : c = ']'
    · simp [hb]
    · simp [hc, hb]

theorem greedy_never {body : Place → Rest → Option Place} {n : Nat} {k : Rest} :
    greedy .never body (n + 1) p k = (body p (fun q => greedy .never body n q k) <|> k p) := rfl

theorem move_move (p : Place) (m n : Nat) : (p.move m).move n = p.move (m + n) := by
  simp only [Place.move, Nat.add_assoc]

/-- The members of a class, as many as there are, and the bracket that closes it. -/
theorem run_members (n : Nat) (h : From text p.pos cs) (hn : cs.length ≤ n) :
    greedy .never (memberNode.run text origin) n p
        (fun q => (Node.text [']']).run text origin q some) =
      (classBody? cs).map fun r => p.move (r.1.length + 1) := by
  fun_induction classBody? cs generalizing n p with
  | case1 =>
    cases n with
    | zero => rw [greedy, run_char h]; rfl
    | succ n =>
      rw [greedy_never, run_char h, memberNode, Node.run, run_set h, run_escape h]
      rfl
  | case2 cs =>
    obtain ⟨n, rfl⟩ : ∃ m, n = m + 1 := ⟨n - 1, by simp only [List.length_cons] at hn; omega⟩
    rw [greedy_never, run_member h, run_char h]
    rfl
  | case3 =>
    obtain ⟨n, rfl⟩ : ∃ m, n = m + 1 := ⟨n - 1, by simp only [List.length_cons] at hn; omega⟩
    rw [greedy_never, run_member h, run_char h]
    rfl
  | case4 cs c h' =>
    obtain ⟨n, rfl⟩ : ∃ m, n = m + 1 := ⟨n - 1, by simp only [List.length_cons] at hn; omega⟩
    rw [greedy_never, run_member h, run_char h]
    simp_all
  | case5 c cs h' ih =>
    simp only [List.length_cons] at hn
    obtain ⟨n, rfl⟩ : ∃ m, n = m + 1 := ⟨n - 1, by omega⟩
    have hih := ih n (p := p.move 2) h.next.next (by omega)
    rw [greedy_never, run_member h, run_char h, hih]
    have hne : (c != '\n') = true := by simpa using h'
    rw [if_pos rfl, List.head?_cons, Option.any_some, if_pos hne]
    cases hb : classBody? cs with
    | none => simp
    | some r =>
      simp only [Option.map_some, move_move, List.length_cons, Option.orElse_eq_orElse, Option.orElse_some]
      exact congrArg (some ∘ p.move) (by omega)
  | case6 c cs h1 h2 h3 ih =>
    simp only [List.length_cons] at hn
    obtain ⟨n, rfl⟩ : ∃ m, n = m + 1 := ⟨n - 1, by omega⟩
    have hih := ih n (p := p.move 1) h.next (by omega)
    have hback : c ≠ '\\' := by
      rintro rfl
      cases cs with
      | nil => exact h2 rfl rfl
      | cons d cs => exact h3 d cs rfl rfl
    rw [greedy_never, run_member h, run_char h, hih, if_neg hback, if_neg h1]
    cases hb : classBody? cs with
    | none => simpa using h1
    | some r => simp [move_move, Nat.add_comm]

/-- The digits of a number, as many as there are. -/
theorem run_digits (n : Nat) (h : From text p.pos cs) (hn : cs.length ≤ n)
    (k : Rest) (hk : ∀ q, (k q).isSome) :
    greedy .never ((Node.set ⟨.union .empty (.range '0' '9'), false, false⟩).run text origin) n p k =
      k (p.move (cs.takeWhile Char.isDigit).length) := by
  induction cs generalizing n p with
  | nil =>
    cases n with
    | zero => rfl
    | succ n => rw [greedy_never, run_set h]; rfl
  | cons c cs ih =>
    simp only [List.length_cons] at hn
    obtain ⟨n, rfl⟩ : ∃ m, n = m + 1 := ⟨n - 1, by omega⟩
    have hih := ih n (p := p.move 1) h.next (by omega)
    rw [greedy_never, run_set h, accepts_range, hih]
    simp only [List.head?_cons, Option.any_some]
    by_cases hc : c.isDigit = true
    · have hr : (decide ('0' ≤ c) && decide (c ≤ '9')) = true := hc
      obtain ⟨q, hq⟩ := Option.isSome_iff_exists.mp (hk (p.move (1 + (cs.takeWhile Char.isDigit).length)))
      simp [hr, hc, move_move, Nat.add_comm] at hq ⊢
      simp [hq]
    · have hr : (decide ('0' ≤ c) && decide (c ≤ '9')) = false := by
        rw [Bool.not_eq_true] at hc
        exact hc
      simp [hr, hc]
      rfl

/-- What is found of a class. -/
theorem run_classNode (h : From text p.pos (c :: cs)) :
    classNode.run text origin p some =
      if c = '[' then (classBody? cs).map fun r => p.move (r.1.length + 2) else none := by
  have hrooms : cs.length ≤ roundsLeft text .never 0 none (p.move 1) := by
    have hsize := h.length_le
    simp only [roundsLeft, Place.move]
    omega
  rw [classNode, Node.run, run_char h]
  simp only [List.head?_cons, Option.some.injEq]
  by_cases hc : c = '['
  · rw [if_pos hc, if_pos hc]
    refine (run_members _ (p := p.move 1) h.next hrooms).trans ?_
    simp only [move_move, Nat.add_left_comm]
  · rw [if_neg hc, if_neg hc]

/-- What is found of the opening of a group. -/
theorem run_openingNode (h : From text p.pos (c :: cs)) :
    openingNode.run text origin p some =
      if c = '(' then some (p.move (if cs.head? = some '?' then 2 else 1)) else none := by
  rw [openingNode, Node.run, run_char h]
  simp only [List.head?_cons, Option.some.injEq]
  by_cases hc : c = '('
  · rw [if_pos hc, if_pos hc]
    show greedy .never ((Node.text ['?']).run text origin) 1 (p.move 1) some = _
    rw [greedy_never, run_char (p := p.move 1) h.next]
    by_cases hq : cs.head? = some '?'
    · rw [if_pos hq, if_pos hq]
      rfl
    · rw [if_neg hq, if_neg hq]
      rfl
  · rw [if_neg hc, if_neg hc]

/-- What is found of a numbered reference. -/
theorem run_referenceNode (h : From text p.pos (c :: cs)) :
    referenceNode.run text origin p some =
      if c = '\\' ∧ cs.head?.any isLeading then
        some (((p.move 1).beginGroup 1 true).move (cs.takeWhile Char.isDigit).length |>.endGroup 1
          (p.pos + 1))
      else none := by
  rw [referenceNode, Node.run, run_char h, List.head?_cons]
  simp only [Option.some.injEq]
  by_cases hc : c = '\\'
  · rw [if_pos hc, Node.run, numberNode, Node.run,
      run_set (p := (p.move 1).beginGroup 1 true) h.next, accepts_range]
    simp only [hc, true_and]
    cases cs with
    | nil => rfl
    | cons d cs =>
      have hrooms : cs.length ≤ roundsLeft text .never 0 none ((p.move 1).move 1) := by
        have hsize := h.next.length_le
        simp only [roundsLeft, Place.move]
        omega
      rw [List.head?_cons, Option.any_some, Option.any_some,
        show (decide ('1' ≤ d) && decide (d ≤ '9')) = isLeading d from rfl]
      by_cases hd : isLeading d = true
      · rw [if_pos hd, if_pos hd, List.takeWhile_cons_of_pos (isDigit_leading hd).1]
        refine (run_digits _ (p := ((p.move 1).beginGroup 1 true).move 1) h.next.next hrooms _
          fun _ => rfl).trans ?_
        rw [move_move, Nat.add_comm]
        rfl
      · rw [if_neg hd, if_neg hd]
  · rw [if_neg hc, if_neg fun h => hc h.1]

end Runs

/-- What is found of a piece at an index. -/
def Piece.found? (i : Nat) : Piece → Option Found
  | .plain _ => none
  | .reference ds =>
    some ⟨⟨i, i + ds.length + 1⟩,
      [⟨1, false, i + 1, some (i + ds.length + 1)⟩, ⟨1, true, i + 1, none⟩]⟩
  | p => some ⟨⟨i, i + p.text.length⟩, []⟩

/-- **What is found where a piece begins is the piece**, unless it is a plain character. -/
theorem matchFrom_piece {text : Text} {origin i : Nat} {c : Char} {cs : List Char}
    (h : From text i (c :: cs)) :
    tokenRegex.matchFrom text origin i = (nextPiece c cs).1.found? i := by
  have hrun : tokenRegex.node.run text origin ⟨i, []⟩ some =
      (classNode.run text origin ⟨i, []⟩ some <|> openingNode.run text origin ⟨i, []⟩ some <|>
        referenceNode.run text origin ⟨i, []⟩ some <|> escapeNode.run text origin ⟨i, []⟩ some) := rfl
  rw [Regex.matchFrom, hrun, run_classNode (p := ⟨i, []⟩) h, run_openingNode (p := ⟨i, []⟩) h,
    run_referenceNode (p := ⟨i, []⟩) h, escapeNode, run_escape (p := ⟨i, []⟩) h,
    accepts_other]
  simp only [List.head?_cons, Option.some.injEq, List.tail_cons]
  by_cases hb : isBare c = true
  · rw [nextPiece_bare hb]
    simp only [isBare, Bool.and_eq_true, bne_iff_ne, ne_eq] at hb
    simp [hb, Piece.found?]
  rcases begins_of_not_bare hb with rfl | rfl | rfl
  · cases hcls : classBody? cs with
    | none => simp [nextPiece, hcls, Piece.found?]
    | some r => simp [nextPiece, hcls, Piece.found?, Piece.text, Place.move]
  · by_cases hq : cs.head? = some '?'
    · obtain ⟨w, rfl⟩ := List.head?_eq_some_iff.mp hq
      rfl
    · rw [nextPiece_opening hq]
      simp [hq, Piece.found?, Piece.text, Place.move]
  · cases cs with
    | nil => rfl
    | cons d cs =>
      by_cases hd : isLeading d = true
      · rw [nextPiece_reference hd]
        have hdig := (isDigit_leading hd).1
        simp [hd, hdig, Piece.found?, Place.move, Place.beginGroup, Place.endGroup]
        omega
      · by_cases hn : d = '\n'
        · subst hn
          rfl
        · rw [nextPiece_escaped (by simpa using hd) hn]
          simp [hd, hn, Piece.found?, Piece.text, Place.move]

/-- At the end of a text nothing is found. -/
theorem matchFrom_end {text : Text} {origin i : Nat} (h : From text i []) :
    tokenRegex.matchFrom text origin i = none := by
  have hrun : ∀ (c : Char) (a : Node), (Node.seq (.text [c]) a).run text origin ⟨i, []⟩ some = none :=
    fun c a => by rw [Node.run, run_char (p := ⟨i, []⟩) h]; rfl
  have hall : tokenRegex.node.run text origin ⟨i, []⟩ some =
      (classNode.run text origin ⟨i, []⟩ some <|> openingNode.run text origin ⟨i, []⟩ some <|>
        referenceNode.run text origin ⟨i, []⟩ some <|> escapeNode.run text origin ⟨i, []⟩ some) := rfl
  rw [Regex.matchFrom, hall, classNode, openingNode, referenceNode, escapeNode, hrun, hrun, hrun, hrun]
  rfl

/-! ## 3. The leftmost token -/

/-- The first piece of a text that is no plain character, with what comes before it and what follows
    it. -/
def firstPiece? : List Char → Option (List Char × Piece × List Char)
  | [] => none
  | c :: cs =>
    match nextPiece c cs with
    | (.plain _, _) => (firstPiece? cs).map fun r => (c :: r.1, r.2)
    | (p, after) => some ([], p, after)

/-- Whether a piece is more than a plain character. -/
def Piece.isToken : Piece → Bool
  | .plain _ => false
  | _ => true

theorem firstPiece?_plain {c d : Char} {cs after : List Char}
    (h : nextPiece c cs = (.plain d, after)) :
    firstPiece? (c :: cs) = (firstPiece? cs).map fun r => (c :: r.1, r.2) := by
  rw [firstPiece?, h]

theorem firstPiece?_token {c : Char} {cs after : List Char} {p : Piece}
    (h : nextPiece c cs = (p, after)) (hp : p.isToken = true) :
    firstPiece? (c :: cs) = some ([], p, after) := by
  rw [firstPiece?, h]
  cases p <;> first | rfl | cases hp

/-- A plain character is the first one of the text. -/
theorem nextPiece_plain {c d : Char} {cs after : List Char}
    (h : nextPiece c cs = (.plain d, after)) : d = c ∧ after = cs := by
  have ht := text_nextPiece c cs
  rw [h] at ht
  simpa [Piece.text] using ht

/-- **The leftmost match is the first piece that is no plain character.** -/
theorem firstFrom_token {text : Text} (origin : Nat) : ∀ {cs : List Char} {i : Nat}, From text i cs →
    tokenRegex.firstFrom text origin (cs.length + 1) i =
      (firstPiece? cs).bind fun r => r.2.1.found? (i + r.1.length)
  | [], i, h => by
      rw [List.length_nil, Regex.firstFrom, matchFrom_end h]
      rfl
  | c :: cs, i, h => by
      have ih := firstFrom_token origin h.next
      rw [List.length_cons, Regex.firstFrom, matchFrom_piece h, ih]
      cases hp : nextPiece c cs with
      | mk p after =>
        cases p with
        | plain d =>
          rw [firstPiece?_plain hp]
          cases firstPiece? cs with
          | none => rfl
          | some r => exact congrArg r.2.1.found? (show i + 1 + r.1.length = i + (r.1.length + 1) by omega)
        | _ => rw [firstPiece?_token hp rfl]; rfl

/-! ## 4. Scanning -/

/-- A token: its text, and the digits of its number where it is a numbered reference. -/
structure Token where
  text : List Char
  number : Option (List Char)
  deriving DecidableEq, Repr

/-- A stretch of a text. -/
def stretch (cs : List Char) (s : Span) : List Char := (cs.drop s.start).take (s.stop - s.start)

theorem stretch_append (u v w : List Char) :
    stretch (u ++ (v ++ w)) ⟨u.length, u.length + v.length⟩ = v := by
  simp [stretch]

/-- The leftmost token of a text, with what comes before it and what follows it. -/
def nextToken? (cs : List Char) : Option (List Char × Token × List Char) :=
  (tokenRegex.search cs.toArray 0).map fun m =>
    (cs.take m.span.start, ⟨stretch cs m.span, (m.group? 1).map (stretch cs)⟩, cs.drop m.span.stop)

/-- The token that a piece is. -/
def Piece.token (p : Piece) : Token :=
  match p with
  | .reference ds => ⟨p.text, some ds⟩
  | p => ⟨p.text, none⟩

theorem found?_token {p : Piece} (hp : p.isToken = true) (i : Nat) :
    ∃ m, p.found? i = some m ∧ m.span = ⟨i, i + p.text.length⟩ ∧
      m.group? 1 = p.token.number.map fun ds => ⟨i + 1, i + 1 + ds.length⟩ := by
  cases p with
  | plain c => cases hp
  | reference ds =>
    refine ⟨_, rfl, by rw [Piece.text, List.length_cons]; rfl, ?_⟩
    show some (Span.mk (i + 1) (i + ds.length + 1)) = some ⟨i + 1, i + 1 + ds.length⟩
    rw [Nat.add_right_comm]
  | _ => exact ⟨_, rfl, rfl, rfl⟩

theorem text_firstPiece : ∀ {cs lead after : List Char} {p : Piece},
    firstPiece? cs = some (lead, p, after) → cs = lead ++ (p.text ++ after) ∧ p.isToken = true
  | [], _, _, _, h => by cases h
  | c :: cs, lead, after, p, h => by
      have ht := text_nextPiece c cs
      cases hp : nextPiece c cs with
      | mk q w =>
        rw [hp] at ht
        by_cases hq : q.isToken = true
        · rw [firstPiece?_token hp hq] at h
          cases h
          exact ⟨ht.symm, hq⟩
        · cases q with
          | plain d =>
            rw [firstPiece?_plain hp] at h
            obtain ⟨⟨l, q, a⟩, hr, he⟩ := Option.map_eq_some_iff.mp h
            cases he
            obtain ⟨heq, hp'⟩ := text_firstPiece hr
            exact ⟨by rw [heq]; rfl, hp'⟩
          | _ => exact absurd rfl hq

/-- **The leftmost token is the first piece that is no plain character.** -/
theorem nextToken?_eq (cs : List Char) :
    nextToken? cs = (firstPiece? cs).map fun r => (r.1, r.2.1.token, r.2.2) := by
  have hfrom : From cs.toArray 0 cs := rfl
  have hsearch : tokenRegex.search cs.toArray 0 =
      (firstPiece? cs).bind fun r => r.2.1.found? r.1.length := by
    rw [Regex.search]
    simpa using firstFrom_token 0 hfrom
  rw [nextToken?, hsearch]
  cases hr : firstPiece? cs with
  | none => rfl
  | some r =>
    obtain ⟨lead, p, after⟩ := r
    obtain ⟨rfl, hp⟩ := text_firstPiece hr
    obtain ⟨m, hm, hspan, hgroup⟩ := found?_token hp lead.length
    have hnumber : (p.token.number.map fun ds => ⟨lead.length + 1, lead.length + 1 + ds.length⟩).map
        (stretch (lead ++ (p.text ++ after))) = p.token.number := by
      cases p with
      | reference ds =>
        have hread := stretch_append (lead ++ ['\\']) ds after
        simp only [List.length_append, List.length_singleton, List.append_assoc] at hread
        exact congrArg some hread
      | _ => rfl
    have htext : p.token.text = p.text := by cases p <;> rfl
    rw [Option.bind_some, hm, Option.map_some, Option.map_some, hspan, hgroup, hnumber, stretch_append,
      ← htext, List.take_left, ← List.append_assoc, ← List.length_append, List.drop_left]

/-- The tokens of a text, each with what comes before it, and what follows the last one. -/
structure Scanned where
  tokens : List (List Char × Token)
  tail : List Char
  deriving DecidableEq, Repr

/-- **The scan of a text**: its leftmost token, then that of what follows it, until there is none. -/
inductive IsScan : List Char → Scanned → Prop
  | done {cs : List Char} : nextToken? cs = none → IsScan cs ⟨[], cs⟩
  | step {cs lead after : List Char} {t : Token} {s : Scanned} :
      nextToken? cs = some (lead, t, after) → IsScan after s →
        IsScan cs ⟨(lead, t) :: s.tokens, s.tail⟩

/-- A text has one scan only. -/
theorem IsScan.unique {cs : List Char} {s s' : Scanned} (h : IsScan cs s) (h' : IsScan cs s') :
    s = s' := by
  induction h generalizing s' with
  | done hnone =>
    cases h' with
    | done => rfl
    | step hsome _ => rw [hnone] at hsome; cases hsome
  | step hsome _ ih =>
    cases h' with
    | done hnone => rw [hsome] at hnone; cases hnone
    | step hsome' hafter =>
      rw [hsome] at hsome'
      cases hsome'
      rw [ih hafter]

namespace Scanned

/-- A scan with a plain character before it. -/
def cons (c : Char) : Scanned → Scanned
  | ⟨[], tail⟩ => ⟨[], c :: tail⟩
  | ⟨(lead, t) :: tokens, tail⟩ => ⟨(c :: lead, t) :: tokens, tail⟩

/-- The scan that pieces make. -/
def ofPieces : List Piece → Scanned
  | [] => ⟨[], []⟩
  | .plain c :: ps => (ofPieces ps).cons c
  | p :: ps => ⟨([], p.token) :: (ofPieces ps).tokens, (ofPieces ps).tail⟩

theorem ofPieces_token {p : Piece} (hp : p.isToken = true) (ps : List Piece) :
    ofPieces (p :: ps) = ⟨([], p.token) :: (ofPieces ps).tokens, (ofPieces ps).tail⟩ := by
  cases p <;> first | rfl | cases hp

end Scanned

/-- The scan of a text. -/
def scan (cs : List Char) : Scanned := .ofPieces (pieces cs)

/-- A plain character leads up to the first token, or to the end. -/
theorem IsScan.cons {c d : Char} {cs after : List Char} {s : Scanned}
    (h : nextPiece c cs = (.plain d, after)) (hs : IsScan cs s) : IsScan (c :: cs) (s.cons c) := by
  have hnext : nextToken? (c :: cs) = (nextToken? cs).map fun r => (c :: r.1, r.2) := by
    rw [nextToken?_eq, nextToken?_eq, firstPiece?_plain h, Option.map_map, Option.map_map]
    rfl
  cases hs with
  | done hnone => exact .done (by rw [hnext, hnone]; rfl)
  | step hsome hafter => exact .step (by rw [hnext, hsome]; rfl) hafter

/-- **Every text has a scan**, which its pieces make. -/
theorem isScan_scan (cs : List Char) : IsScan cs (scan cs) := by
  induction hn : cs.length using Nat.strongRecOn generalizing cs with
  | ind n ih =>
    cases cs with
    | nil => exact .done (nextToken?_eq [])
    | cons c cs =>
      have hl := length_nextPiece c cs
      simp only [List.length_cons] at hn
      rw [scan, pieces_cons]
      cases hp : nextPiece c cs with
      | mk p after =>
        rw [hp] at hl
        replace hl : after.length ≤ cs.length := hl
        by_cases ht : p.isToken = true
        · rw [Scanned.ofPieces_token ht]
          refine .step ?_ (ih after.length (by omega) after rfl)
          rw [nextToken?_eq, firstPiece?_token hp ht]
          rfl
        · cases p with
          | plain d =>
            obtain ⟨rfl, rfl⟩ := nextPiece_plain hp
            exact (ih after.length (by omega) after rfl).cons hp
          | _ => exact absurd rfl ht

end Highlight.Pattern
