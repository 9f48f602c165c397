import Mathlib.Data.List.Forall2
import Highlight.Proofs.Scan.OpenScopes
import Highlight.Proofs.Token.Leaves

/-!
# Where characters belong

Plain text belongs to the modes that are open when it is passed. The beginning of a mode belongs to
that mode as well, and an end to the modes that it closes, unless they are left outside.

* `placesOf`, `placesOfRound`, `places` -- the scopes that the characters of a text belong under;
* `OwnLabel`, `Under` -- a character under these, and perhaps one label of its own;
* `Run.leaves`, `Writes` -- text that is told under the scopes that are open.
-/

namespace Highlight.Scan

open Highlight.Arena (RuleMatch ScopeEmit)
open Highlight.Token (Event Leaf eventsLeaves leavesOf)
open List (Forall₂)

variable {s : Scene} {r r' r1 r2 : Run} {t t1 t2 : String}

/-! ## 1. Where text belongs -/

/-- Text under the scopes of open modes. -/
def placesOf (arena : Arena) (frames : List Frame) (t : String) : List Leaf :=
  leavesOf (scopesOf arena frames).reverse t

/-- The open modes that what a match has read belongs to, by those before and after its round: the
    beginning of a mode belongs to that mode as well, unless it is left outside, and an end to the
    modes that it closes, unless it is left outside. -/
def delimiterFrames (s : Scene) (m : RuleMatch) (r r' : Run) : List Frame :=
  match m.kind with
  | .begins id => if (s.arena.mode id).excludeBegin then r.frames else r'.frames
  | .ends => if (s.top r).excludeEnd then r'.frames else r.frames
  | .illegal => r.frames

/-- **Where the characters that a round passes belong**: those before its match to the modes that are
    open then, and those that the match has read as said above. -/
def placesOfRound (s : Scene) (r r' : Run) : List Leaf :=
  match lookUp s r with
  | .ok (some m, _) =>
    placesOf s.arena r.frames (s.text.slice r.index m.span.start) ++
      placesOf s.arena (delimiterFrames s m r r') (s.text.slice m.span.start r'.index)
  | _ => []

/-- Where the characters that are left belong, round by round; the rest of the text belongs to the
    modes that are open at last. -/
def placesFrom (s : Scene) : Nat → Nat → Run → List Leaf
  | 0, _, _ => []
  | fuel + 1, steps, r =>
    match turn s (steps + 1) r with
    | .next _ r' => placesOfRound s r r' ++ placesFrom s fuel (steps + 1) r'
    | .last _ r' =>
      placesOfRound s r r' ++ placesOf s.arena r'.frames (s.text.slice r'.index s.text.size)
    | .broken _ _ => []

/-- **Where the characters of a text belong**: each with the scopes of the modes that it belongs to,
    as they are called in the output, the outermost first. -/
def places (s : Scene) (continuation : Option (List Nat)) : List Leaf :=
  placesFrom s (maxSteps s) 0 (initial s.arena continuation)

theorem placesOf_empty (arena : Arena) (frames : List Frame) : placesOf arena frames "" = [] := rfl

theorem placesOf_append (arena : Arena) (frames : List Frame) (t1 t2 : String) :
    placesOf arena frames (t1 ++ t2) = placesOf arena frames t1 ++ placesOf arena frames t2 :=
  Token.leavesOf_append _ t1 t2

/-! ## 2. Labels of its own -/

/-- The labels that the text of a delimiter can have. -/
def HasLabel (label : String) : ScopeEmit → Prop
  | .wrap l => l = label
  | .parts labels => ∃ part, (part, some label) ∈ labels.entries

/-- **The labels that text can have beside the scopes of open modes**: those of keywords and those of
    delimiters. -/
inductive OwnLabel (arena : Arena) : String → Prop
  | keyword {id : Nat} {k : Arena.ModeKeywords} {word : String} {entry : Keyword.Entry} :
      (arena.mode id).keywords = some k → k.table.find? word = some entry →
      isHidden entry.scope = false → OwnLabel arena entry.scope
  | begins {id : Nat} {scope : ScopeEmit} {label : String} :
      (arena.mode id).beginScope = some scope → HasLabel label scope → OwnLabel arena label
  | ends {id : Nat} {scope : ScopeEmit} {label : String} :
      (arena.mode id).endScope = some scope → HasLabel label scope → OwnLabel arena label

/-- **A character is under the scopes that it belongs under**, with at most one label of its own
    inside them. -/
def Under (arena : Arena) (leaf place : Leaf) : Prop :=
  leaf.1 = place.1 ∧ ∃ extra, leaf.2 = place.2 ++ extra ∧
    (extra = [] ∨ ∃ label, OwnLabel arena label ∧ extra = [arena.scopeAlias label])

theorem under_leavesOf (arena : Arena) (path extra : List String) (t : String)
    (hextra : extra = [] ∨ ∃ label, OwnLabel arena label ∧ extra = [arena.scopeAlias label]) :
    Forall₂ (Under arena) (leavesOf (path ++ extra) t) (leavesOf path t) := by
  unfold leavesOf
  rw [List.forall₂_map_left_iff, List.forall₂_map_right_iff]
  exact List.forall₂_same.mpr fun c _ => ⟨rfl, extra, rfl, hextra⟩

/-! ## 3. Text that is told -/

/-- The characters that a run has told, each under the scopes that were open then. -/
def Run.leaves (r : Run) : List Leaf := eventsLeaves [] [] r.events.reverse

theorem Run.leaves_emit {opened : List String} (hr : r.opened = some opened) (e : Event) :
    (r.emit e).leaves = r.leaves ++ e.leaves [] opened := by
  show eventsLeaves [] [] (e :: r.events).reverse = _
  rw [List.reverse_cons, Token.eventsLeaves_append hr, Token.eventsLeaves_singleton]
  rfl

/-- **A run tells a text under the open scopes.** -/
structure Writes (arena : Arena) (r r' : Run) (t : String) : Prop where
  tells : Tells r r' t
  leaves : ∀ opened, r.opened = some opened → ∃ new, r'.leaves = r.leaves ++ new ∧
    Forall₂ (Under arena) new (leavesOf opened.reverse t)

theorem Writes.refl (arena : Arena) (r : Run) : Writes arena r r "" :=
  ⟨Tells.refl r, fun _ _ => ⟨[], (List.append_nil _).symm, .nil⟩⟩

theorem Writes.trans {arena : Arena} (h1 : Writes arena r r1 t1) (h2 : Writes arena r1 r2 t2) :
    Writes arena r r2 (t1 ++ t2) := by
  refine ⟨h1.tells.trans h2.tells, fun opened hopened => ?_⟩
  obtain ⟨new1, hnew1, hunder1⟩ := h1.leaves opened hopened
  obtain ⟨new2, hnew2, hunder2⟩ := h2.leaves opened (h1.tells.opened.trans hopened)
  refine ⟨new1 ++ new2, ?_, ?_⟩
  · rw [hnew2, hnew1, List.append_assoc]
  · rw [Token.leavesOf_append]
    exact List.rel_append hunder1 hunder2

theorem writes_emitText (arena : Arena) (r : Run) (t : String) :
    Writes arena r (r.emitText t) t := by
  refine ⟨tells_emitText r t, fun opened hopened => ⟨_, Run.leaves_emit hopened _, ?_⟩⟩
  have hunder := under_leavesOf arena opened.reverse [] t (.inl rfl)
  rw [List.append_nil] at hunder
  exact hunder

theorem writes_emitLabelled {arena : Arena} (r : Run) (t : String) {label : String}
    (hown : OwnLabel arena label) : Writes arena r (r.emitLabelled arena t label) t := by
  refine ⟨tells_emitLabelled r arena t label, fun opened hopened => ?_⟩
  unfold Run.emitLabelled
  split
  · rename_i hempty
    have ht : t = "" := by simpa using hempty
    rw [ht]
    exact ⟨[], (List.append_nil _).symm, .nil⟩
  · have hlabel : (r.emit (.opening (arena.scopeAlias label))).opened =
        some (arena.scopeAlias label :: opened) := by
      rw [Run.opened_emit, hopened]
      rfl
    have htext : ((r.emit (.opening (arena.scopeAlias label))).emitText t).opened =
        some (arena.scopeAlias label :: opened) := (tells_emitText _ t).opened.trans hlabel
    refine ⟨leavesOf (opened.reverse ++ [arena.scopeAlias label]) t, ?_,
      under_leavesOf arena opened.reverse _ t (.inr ⟨label, hown, rfl⟩)⟩
    rw [Run.leaves_emit htext, Run.emitText, Run.leaves_emit hlabel, Run.leaves_emit hopened]
    show r.leaves ++ [] ++ leavesOf ([] ++ (arena.scopeAlias label :: opened).reverse) t ++ [] = _
    rw [List.append_nil, List.append_nil, List.nil_append, List.reverse_cons]

theorem piecewise_writes (arena : Arena) : Piecewise arena (OwnLabel arena) (Writes arena) where
  refl := Writes.refl arena
  trans := Writes.trans
  text := writes_emitText arena
  count := fun r maxHits word relevance => ⟨tells_count r maxHits word relevance, fun _ _ =>
    ⟨[], (List.append_nil _).symm, .nil⟩⟩
  labelled := fun r t _ hown => writes_emitLabelled r t hown
  keywords := fun _ _ _ _ hk hentry hshown => .keyword hk hentry hshown

end Highlight.Scan
