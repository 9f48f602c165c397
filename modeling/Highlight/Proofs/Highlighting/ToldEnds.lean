import Highlight.Proofs.Highlighting.Retold
import Highlight.Proofs.Scan.ToldEnds

/-!
# Ends of several parts, and ends of other modes

An end is looked for with the ends of all the modes that it may end, and a mode that is started in the
place of one that has ended begins with the end of this. Labels by group belong to one pattern, but the
match may be that of another.

* `end_told_by_innermost` -- **what a round of a run adds in which an end closes modes**, and when it
  tells the end once;
* `own_end_told_once` -- the end of what is in brackets;
* `ends_of_others_untold` -- an end of another mode that is not told, and one that is told twice.
-/

namespace Highlight.Highlighter

open Highlight.Arena (RuleMatch WrittenWith compileLanguage isParts_of_checks)
open Highlight.Grammar (Language Mode)
open Highlight.Scan (DropsEnd Ended EndsInPlainParts Frame KeepsApart Run Scene StackReached
  afterRounds? aloneIn endOf holdsEnd isEmptyMode keepsApart keepsApart_of_check labelsGroups lexeme
  lookUp reached_of_afterRounds? retellsEnd scanAll startText startedBy tellsEnd turn)
open Highlight.Token (textsOf)

variable {h : Highlighter} {name : String} {arena : Arena} {language : Language}

/-! ## 1. Every run -/

/-- **An end that closes modes is told by the innermost of them.** The round adds the text up to the
    end; then the end up to where the round leads, or all of it if it is told and read again; but
    nothing if the innermost mode labels its own end by group and this has not matched. A mode that is
    started and labels its beginning by group adds the groups of the end with these numbers, and drops
    what has been held back. So the text up to where the round leads is told once if none of this
    is the case, or if the groups have read nothing. -/
theorem end_told_by_innermost (hc : compileLanguage name language = .ok arena)
    (hext : language.extensions = []) (hhands : HandsLossless h arena) (depth : Nat) (code : String)
    (ignoreIllegals : Bool) {continuation : Option (List Nat)}
    (hcontinued : ∀ stack, continuation = some stack → StackReached arena stack) :
    let s := h.sceneOf (h.delegateTo (h.runAt depth)) arena code ignoreIllegals
    ∀ steps r m k asked r', Ended s continuation steps r m k asked r' →
      (labelsGroups (s.top r) = true → EndsInPlainParts language (s.top r) ∧
        ∀ f below, r.frames = f :: below →
          KeepsApart s language.caseInsensitive [] below f) →
      (¬ DropsEnd s r k asked → r'.told ++ r'.buffer =
        r.told ++ r.buffer ++ s.text.slice r.index m.span.start ++
          (if tellsEnd s r m then
            s.text.slice m.span.start (if retellsEnd (s.top r) then m.span.stop else r'.index)
          else "") ++ startText s m (startedBy s asked k)) ∧
      (DropsEnd s r k asked → r'.told ++ r'.buffer =
        (if (s.top r).skip then r.told
          else r.told ++ r.buffer ++ s.text.slice r.index m.span.start) ++
          startText s m (startedBy s asked k)) ∧
      (¬ DropsEnd s r k asked → tellsEnd s r m = true → retellsEnd (s.top r) = false →
        startText s m (startedBy s asked k) = "" →
        r'.told ++ r'.buffer = r.told ++ r.buffer ++ s.text.slice r.index r'.index) := by
  intro s steps r m k asked r' hended hlabels
  obtain ⟨hkept, hdropped⟩ := Scan.told_of_ended (hhands.keeps depth code ignoreIllegals) hc hext
    hcontinued hended hlabels
  refine ⟨hkept, hdropped, fun hdrops htells hretells hstarts => ?_⟩
  obtain ⟨hfrom, hordered, _, hclosed⟩ := hended.closed
  have hle : m.span.start ≤ r'.index := by
    rw [hclosed.index]
    split
    · exact Nat.le_refl _
    · exact hordered
  have hadds := hkept hdrops
  rw [htells, if_pos rfl, hretells, if_neg Bool.false_ne_true, hstarts, String.append_empty,
    String.append_assoc, Text.slice_append _ hfrom hle] at hadds
  exact hadds

/-! ## 2. Pairs with brackets inside them -/

/-- Whether a run comes in some rounds to an end that closes modes, and the round passes a test. -/
def endsIn (s : Scene) (steps : Nat)
    (test : Run → RuleMatch → Nat → List Frame → Run → Bool) : Bool :=
  (afterRounds? s none steps).any fun r =>
    match lookUp s r, turn s (steps + 1) r with
    | .ok (some m, _), .next _ r' => m.kind == .ends && !isEmptyMode m r.last &&
      match (endOf s m r.frames).result with
      | .ok (some k, asked) => test r m k asked r'
      | _ => false
    | _, _ => false

theorem exists_of_endsIn {s : Scene} {steps : Nat}
    {test : Run → RuleMatch → Nat → List Frame → Run → Bool} (h : endsIn s steps test = true) :
    ∃ r m k asked r', Ended s none steps r m k asked r' ∧ test r m k asked r' = true := by
  obtain ⟨r, hr, h⟩ := (Option.any_eq_true _ _).mp h
  split at h
  · rename_i m first notes r' hfound hturn
    simp only [Bool.and_eq_true, beq_iff_eq, Bool.not_eq_true'] at h
    obtain ⟨⟨hkind, hfull⟩, h⟩ := h
    split at h
    · rename_i k asked hcounts
      exact ⟨r, m, k, asked, r', ⟨reached_of_afterRounds? hr, ⟨first, hfound⟩, hkind, hfull, hcounts,
        notes, hturn⟩, h⟩
    · cases h
  · cases h

/-- What is in brackets inside a pair, up to `ab` or to the end of the pair. -/
def inBrackets : Mode where
  scope := some (.single "c")
  beginPattern := some (.single "\\[")
  endPattern := some (.sequence ["a", "b"])
  endScope := some (.groups (.ofList [(1, some "x")]))
  endsWithParent := some true

/-- What is started behind a pair, whose beginning would be in two parts. -/
def behindPair : Mode where
  scope := some (.single "s")
  beginPattern := some (.sequence ["x", "y"])
  beginScope := some (.groups (.ofList [(1, some "k")]))
  endPattern := some (.single ";")

/-- A pair, whose end has a group. -/
def pair : Mode where
  scope := some (.single "p")
  beginPattern := some (.single "<")
  endPattern := some (.single "(>)")
  contains := some [.mode ⟨[("inner", 0)], inBrackets⟩]
  starts := some ⟨[("starts", 0)], behindPair⟩

/-- A language of pairs. -/
def pairLanguage : Language where
  mode := { contains := some [.mode ⟨[("pair", 0)], pair⟩] }

theorem writtenWith_pair : WrittenWith pairLanguage fun raw =>
    raw = pair ∨ raw = inBrackets ∨ raw = behindPair := by
  refine ⟨rfl, rfl, ?_, ?_, ?_⟩
  · rintro raw (rfl | rfl | rfl | rfl) <;> rfl
  · rintro raw (rfl | rfl | rfl | rfl) c hc es hes s hs
    · obtain rfl := List.mem_singleton.mp hc
      cases hes
      cases List.mem_singleton.mp hs
      exact .inl rfl
    · obtain rfl := List.mem_singleton.mp hc
      cases hes
      cases List.mem_singleton.mp hs
      exact .inr (.inl rfl)
    · cases hc
    · cases hc
  · rintro raw (rfl | rfl | rfl) s hs
    · cases hs
      exact .inr (.inr rfl)
    · cases hs
    · cases hs

/-- A mode with an end that ends with its parent as well is that in brackets. -/
theorem endsInPlainParts_pair (hc : compileLanguage name pairLanguage = .ok arena) {id : Nat}
    (he : (arena.mode id).endSource.isSome = true) (hends : (arena.mode id).endsWithParent = true) :
    EndsInPlainParts pairLanguage (arena.mode id) := by
  obtain ⟨parent, key, raw, p, hraw, hp, hm⟩ := writtenWith_pair.compiled hc he
  have hlinks : (arena.mode id).endsWithParent = Arena.isSet raw.endsWithParent := by
    rw [hm]
    exact congrArg Arena.isSet (congrArg Arena.Links.endsWithParent (writtenWith_pair.links (.inr hraw) hp))
  rw [hends] at hlinks
  rcases hraw with rfl | rfl | rfl
  · cases hlinks
  · have hcompiled : (["a", "b"].mapM (Pattern.compile · false)).toOption.any (fun regexes =>
        regexes.map (·.groups) == [0, 0]) = true := by decide +kernel
    obtain ⟨regexes, hregexes, hgroups⟩ := exists_of_any hcompiled
    obtain ⟨r, _, rfl, hr, hgroups⟩ := List.map_eq_cons_iff.mp (beq_iff_eq.mp hgroups)
    obtain ⟨r', _, rfl, hr', hgroups⟩ := List.map_eq_cons_iff.mp hgroups
    obtain rfl := List.map_eq_nil_iff.mp hgroups
    have hwritten : Arena.written ((key.map Arena.Key.place).getD [("root", 0)]) inBrackets =
        .ok inBrackets := rfl
    refine ⟨["a", "b"], _, [r, r'], ⟨parent, key, _, p, _, hp, hm, hwritten, rfl, rfl⟩, ?_, ?_⟩
    · exact isParts_of_checks hregexes (by unfold Pattern.Clear; decide +kernel) (by decide +kernel)
        (by decide +kernel)
    · rw [show Pattern.groupsOf [r, r'] + [r, r'].length = 2 by simp [Pattern.groupsOf, hr, hr']]
      decide +kernel
  · cases hlinks

/-- In brackets inside a pair, their own end is told once. -/
theorem own_end_told_once : ∃ arena r m asked r',
    compileLanguage "l" pairLanguage = .ok arena ∧
    Ended (aloneIn arena "<[ab>;") none 2 r m 1 asked r' ∧
    labelsGroups ((aloneIn arena "<[ab>;").top r) = true ∧
    r.told ++ r.buffer = "<[" ∧ r'.told ++ r'.buffer = "<[ab" := by
  have hcheck : (compileLanguage "l" pairLanguage).toOption.any (fun arena =>
      arena.modes.all (·.subLanguage.isNone) &&
        endsIn (aloneIn arena "<[ab>;") 2 fun r m k asked r' =>
          let s := aloneIn arena "<[ab>;"
          k == 1 && (s.top r).endsWithParent && (s.top r).endSource.isSome &&
            labelsGroups (s.top r) && tellsEnd s r m && !retellsEnd (s.top r) &&
            !holdsEnd (s.top r) && startText s m (startedBy s asked k) == "" &&
            r.index == 2 && r'.index == 4 && r.told ++ r.buffer == "<[" &&
            keepsApart s false [] (r.frames.drop 1) (r.frames.headD ⟨0, .empty⟩)) = true := by
    decide +kernel
  obtain ⟨arena, hc, hcheck⟩ := exists_of_any hcheck
  obtain ⟨hhands, hcheck⟩ := Bool.and_eq_true_iff.mp hcheck
  obtain ⟨r, m, k, asked, r', hended, htest⟩ := exists_of_endsIn hcheck
  simp only [Bool.and_eq_true, Bool.not_eq_true', beq_iff_eq] at htest
  obtain ⟨⟨⟨⟨⟨⟨⟨⟨⟨⟨⟨rfl, hparent⟩, hsource⟩, hgroups⟩, htells⟩, hretells⟩, hholds⟩, hstarts⟩, hindex⟩,
    hindex'⟩, htold⟩, hapart⟩ := htest
  obtain ⟨_, _, honce⟩ := end_told_by_innermost hc rfl (handsLossless_of_all hhands) 0 "<[ab>;" false
    (fun _ h => by cases h) 2 r m 1 asked r' hended fun _ =>
      ⟨endsInPlainParts_pair hc hsource hparent, fun f below hframes => keepsApart_of_check (by
        rwa [hframes] at hapart)⟩
  have hadds := honce (fun hdrops => Bool.false_ne_true (hholds.symm.trans hdrops.1)) htells hretells
    hstarts
  refine ⟨arena, r, m, asked, r', hc, hended, hgroups, htold, hadds.trans ?_⟩
  rw [htold, hindex, hindex']
  show "<[" ++ (Text.ofString "<[ab>;").slice 2 4 = _
  decide +kernel

/-- **An end of another mode is not told, and one that starts a mode is told twice**: the end of a pair
    is that of the brackets inside it as well, which label the groups of their own; and what is started
    behind a pair takes the group of its end for the first part of its own beginning. -/
theorem ends_of_others_untold : ∃ arena, compileLanguage "l" pairLanguage = .ok arena ∧
    (∃ r m asked r', Ended (aloneIn arena "<[>;") none 2 r m 2 asked r' ∧
      lexeme (aloneIn arena "<[>;") m = ">" ∧
      r.told ++ r.buffer = "<[" ∧ r'.told ++ r'.buffer = "<[") ∧
    (∃ r m asked r', Ended (aloneIn arena "<>;") none 1 r m 1 asked r' ∧
      lexeme (aloneIn arena "<>;") m = ">" ∧
      r.told ++ r.buffer = "<" ∧ r'.told ++ r'.buffer = "<>>") ∧
    textsOf (scanAll (aloneIn arena "<[>;") none).events = "<[;" ∧
    textsOf (scanAll (aloneIn arena "<>;") none).events = "<>>;" := by
  have hcheck : (compileLanguage "l" pairLanguage).toOption.any (fun arena =>
      endsIn (aloneIn arena "<[>;") 2 (fun r m k _ r' => k == 2 &&
        lexeme (aloneIn arena "<[>;") m == ">" &&
        r.told ++ r.buffer == "<[" && r'.told ++ r'.buffer == "<[") &&
      endsIn (aloneIn arena "<>;") 1 (fun r m k _ r' => k == 1 &&
        lexeme (aloneIn arena "<>;") m == ">" &&
        r.told ++ r.buffer == "<" && r'.told ++ r'.buffer == "<>>") &&
      textsOf (scanAll (aloneIn arena "<[>;") none).events == "<[;" &&
      textsOf (scanAll (aloneIn arena "<>;") none).events == "<>>;") = true := by decide +kernel
  obtain ⟨arena, hc, hcheck⟩ := exists_of_any hcheck
  simp only [Bool.and_eq_true, beq_iff_eq] at hcheck
  obtain ⟨⟨⟨hinside, hbehind⟩, htext⟩, htext'⟩ := hcheck
  obtain ⟨r, m, k, asked, r', hended, htest⟩ := exists_of_endsIn hinside
  obtain ⟨r0, m0, k0, asked0, r0', hended0, htest0⟩ := exists_of_endsIn hbehind
  simp only [Bool.and_eq_true, beq_iff_eq] at htest htest0
  obtain ⟨⟨⟨rfl, hread⟩, htold⟩, htold'⟩ := htest
  obtain ⟨⟨⟨rfl, hread0⟩, htold0⟩, htold0'⟩ := htest0
  exact ⟨arena, hc, ⟨r, m, asked, r', hended, hread, htold, htold'⟩,
    ⟨r0, m0, asked0, r0', hended0, hread0, htold0, htold0'⟩, htext, htext'⟩

end Highlight.Highlighter
