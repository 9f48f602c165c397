import Highlight.Proofs.Token.Labels

/-!
# Markup

HTML that is written for a tree is a row of tags and characters. Where no label has a character that
markup is made of, the tags are those of the labelled nodes and nothing else, and what stands
between them is the text of the tree with five characters written as entities.

* `IsBare` -- texts without the characters that tags are made of;
* `Piece`, `SpansOf`, `OnlySpans` -- what is written with no tags but those of spans;
* `read`, `read_eq_some_iff` -- markup read piece by piece;
* `Node.pieces`, `render_eq` -- the markup of a node;
* `plainText` -- markup without its tags, with its entities decoded;
* `Element`, `elements?` -- how the tags of markup nest;
* `html_reads_back` -- the result.
-/

namespace Highlight.Html

/-! ## 1. Texts without markup -/

/-- Whether a character is none of those that tags are made of. -/
def isBare (c : Char) : Bool := c != '<' && c != '>' && c != '"'

/-- **A text without the characters that tags are made of.** -/
def IsBare (s : String) : Prop := ∀ c ∈ s.toList, isBare c = true

-- By the characters of the text: as it stands, the statement is about all characters there are.
instance (s : String) : Decidable (IsBare s) :=
  decidable_of_iff (s.toList.all isBare = true) List.all_eq_true

theorem isBare_escapeChar (c : Char) : ∀ d ∈ escapeChar c, isBare d = true := by
  unfold escapeChar
  split
  · exact List.all_eq_true.mp rfl
  · exact List.all_eq_true.mp rfl
  · exact List.all_eq_true.mp rfl
  · exact List.all_eq_true.mp rfl
  · exact List.all_eq_true.mp rfl
  · rename_i hlt hgt hquote _
    intro d hd
    rw [List.mem_singleton.mp hd]
    simp only [isBare, Bool.and_eq_true, bne_iff_ne]
    exact ⟨⟨hlt, hgt⟩, hquote⟩

/-- **A text as HTML content has no characters of tags.** -/
theorem isBare_escape (s : String) : IsBare (escape s) := by
  intro d hd
  unfold escape at hd
  rw [String.toList_ofList] at hd
  obtain ⟨c, -, hd⟩ := List.mem_flatMap.mp hd
  exact isBare_escapeChar c d hd

/-- The names between dots have only characters of the whole. -/
theorem mem_of_mem_dotted : ∀ {cs name : List Char} {c : Char}, name ∈ dotted cs → c ∈ name → c ∈ cs
  | [], name, c, hname, hc => by
      rw [List.mem_singleton.mp hname] at hc
      cases hc
  | d :: ds, name, c, hname, hc => by
      unfold dotted at hname
      split at hname
      · rcases List.mem_cons.mp hname with rfl | hname
        · cases hc
        · exact List.mem_cons_of_mem d (mem_of_mem_dotted hname hc)
      · split at hname
        · rw [List.mem_singleton.mp hname] at hc
          rw [List.mem_singleton.mp hc]
          exact List.mem_cons_self
        · rename_i first others hdotted
          rcases List.mem_cons.mp hname with rfl | hname
          · rcases List.mem_cons.mp hc with rfl | hc
            · exact List.mem_cons_self
            · exact List.mem_cons_of_mem d
                (mem_of_mem_dotted (hdotted ▸ List.mem_cons_self) hc)
          · exact List.mem_cons_of_mem d
              (mem_of_mem_dotted (hdotted ▸ List.mem_cons_of_mem first hname) hc)

theorem isBare_furtherClasses : ∀ {names : List (List Char)} {depth : Nat},
    (∀ name ∈ names, ∀ c ∈ name, isBare c = true) →
    ∀ c ∈ furtherClasses depth names, isBare c = true
  | [], _, _, c, hc => by cases hc
  | name :: names, depth, hall, c, hc => by
      obtain ⟨hname, hnames⟩ := List.forall_mem_cons.mp hall
      unfold furtherClasses at hc
      rcases List.mem_append.mp hc with hc | hc
      · rcases List.mem_append.mp hc with hc | hc
        · rcases List.mem_cons.mp hc with rfl | hc
          · decide
          · exact hname c hc
        · rw [List.eq_of_mem_replicate hc]
          decide
      · exact isBare_furtherClasses hnames c hc

theorem eq_append_of_stripped? : ∀ {start cs rest : List Char}, stripped? start cs = some rest →
    cs = start ++ rest
  | [], _, _, h => by
      cases h
      rfl
  | _ :: _, [], _, h => by cases h
  | a :: start, c :: cs, rest, h => by
      unfold stripped? at h
      split at h
      · rename_i hac
        rw [eq_append_of_stripped? h, eq_of_beq hac]
        rfl
      · cases h

theorem stripped?_append : ∀ start rest : List Char, stripped? start (start ++ rest) = some rest
  | [], _ => rfl
  | a :: start, rest => by simp [stripped?, stripped?_append start rest]

/-- **The class of a label without characters of tags has none.** -/
theorem isBare_cssClass {scope lead : String} (hscope : IsBare scope) (hlead : IsBare lead) :
    IsBare (cssClass scope lead) := by
  unfold cssClass
  split
  · rename_i language hstripped
    rw [IsBare, eq_append_of_stripped? hstripped, List.forall_mem_append] at hscope
    rw [IsBare, String.toList_ofList, List.forall_mem_append]
    exact ⟨List.all_eq_true.mp rfl, hscope.2⟩
  · have hnames : ∀ name ∈ dotted scope.toList, ∀ c ∈ name, isBare c = true :=
      fun name hname c hc => hscope c (mem_of_mem_dotted hname hc)
    split
    · exact hlead
    · rename_i name names hdotted
      rw [hdotted] at hnames
      obtain ⟨hname, hnames⟩ := List.forall_mem_cons.mp hnames
      rw [IsBare, String.toList_ofList, List.forall_mem_append, List.forall_mem_append]
      exact ⟨⟨hlead, hname⟩, isBare_furtherClasses hnames⟩

/-! ## 2. Pieces of markup -/

/-- A piece of markup: the tag that opens a span of some class, the tag that closes one, or a
    character. -/
inductive Piece where
  | opening (cls : String)
  | closing
  | char (c : Char)
  deriving DecidableEq, Repr

namespace Piece

/-- What stands before the class in a tag that opens a span. -/
def tagStart : List Char := "span class=\"".toList

/-- What a tag that closes a span holds. -/
def tagEnd : List Char := "/span".toList

/-- A piece as it is written. -/
def write : Piece → List Char
  | opening cls => '<' :: (tagStart ++ cls.toList ++ ['"']) ++ ['>']
  | closing => '<' :: tagEnd ++ ['>']
  | char c => [c]

/-- That a piece opens a span only of some classes, and is no character of a tag. -/
def Within (C : String → Prop) : Piece → Prop
  | opening cls => C cls
  | closing => True
  | char c => isBare c = true

/-- That a piece has characters of tags only where a tag has to have them. -/
def IsClean : Piece → Prop := Within IsBare

theorem Within.mono {C C' : String → Prop} {p : Piece} (hp : p.Within C)
    (hC : ∀ cls, C cls → C' cls) : p.Within C' := by
  cases p with
  | opening cls => exact hC cls hp
  | closing => trivial
  | char c => exact hp

end Piece

/-- **Markup of tags of spans, of some classes, and of characters that are none of tags.** -/
def SpansOf (C : String → Prop) (s : String) : Prop :=
  ∃ ps : List Piece, (∀ p ∈ ps, p.Within C) ∧ s.toList = ps.flatMap Piece.write

/-- **Markup in which the characters of tags stand only in tags of spans**, which have a class and
    nothing else. -/
def OnlySpans : String → Prop := SpansOf IsBare

theorem SpansOf.mono {C C' : String → Prop} {s : String} (hs : SpansOf C s)
    (hC : ∀ cls, C cls → C' cls) : SpansOf C' s := by
  obtain ⟨ps, hps, hwrite⟩ := hs
  exact ⟨ps, fun p hp => (hps p hp).mono hC, hwrite⟩

theorem spansOf_of_isBare {C : String → Prop} {s : String} (hs : IsBare s) : SpansOf C s := by
  refine ⟨s.toList.map .char, List.forall_mem_map.mpr hs, ?_⟩
  rw [List.flatMap_map]
  exact (List.flatMap_singleton' _).symm

/-! ## 3. Markup read piece by piece -/

/-- The piece that a tag is, by what it holds. -/
def tag? (tag : List Char) : Option Piece :=
  if tag == Piece.tagEnd then some .closing
  else
    match (stripped? Piece.tagStart tag).map List.reverse with
    | some ('"' :: cls) =>
      if cls.all isBare then some (.opening (String.ofList cls.reverse)) else none
    | _ => none

/-- The pieces of markup, given what has been read of a tag, the last character first. -/
def readFrom : Option (List Char) → List Char → Option (List Piece)
  | none, [] => some []
  | some _, [] => none
  | none, c :: cs =>
    if c == '<' then readFrom (some []) cs
    else if isBare c then (readFrom none cs).map (.char c :: ·)
    else none
  | some tag, c :: cs =>
    if c == '>' then do return (← tag? tag.reverse) :: (← readFrom none cs)
    else readFrom (some (c :: tag)) cs

/-- **The pieces of markup**, if it has no tags but those of spans. -/
def read (s : String) : Option (List Piece) := readFrom none s.toList

theorem tag?_tagEnd : tag? Piece.tagEnd = some .closing := rfl

theorem tag?_opening {cls : String} (hcls : IsBare cls) :
    tag? (Piece.tagStart ++ cls.toList ++ ['"']) = some (.opening cls) := by
  have hne : (Piece.tagStart ++ cls.toList ++ ['"'] == Piece.tagEnd) = false := rfl
  have hall : cls.toList.reverse.all isBare = true := by
    rw [List.all_reverse]
    exact List.all_eq_true.mpr hcls
  rw [tag?, hne, List.append_assoc, stripped?_append, if_neg Bool.false_ne_true]
  simp only [Option.map_some, List.reverse_append, List.reverse_cons, List.reverse_nil,
    List.nil_append, List.singleton_append, hall, if_true, List.reverse_reverse,
    String.ofList_toList]

/-- A tag that is a piece is written as the piece. -/
theorem write_of_tag? {tag : List Char} {p : Piece} (h : tag? tag = some p) :
    p.IsClean ∧ p.write = '<' :: tag ++ ['>'] := by
  unfold tag? at h
  split at h
  · rename_i hend
    cases h
    rw [eq_of_beq hend]
    exact ⟨trivial, rfl⟩
  · split at h
    · rename_i cls hstripped
      split at h
      · rename_i hbare
        cases h
        obtain ⟨rest, hrest, hreverse⟩ := Option.map_eq_some_iff.mp hstripped
        have hrest' : rest = cls.reverse ++ ['"'] := by
          rw [← List.reverse_reverse rest, hreverse, List.reverse_cons]
        refine ⟨?_, ?_⟩
        · intro c hc
          rw [String.toList_ofList] at hc
          exact List.all_eq_true.mp hbare c (List.mem_reverse.mp hc)
        · rw [eq_append_of_stripped? hrest, hrest', Piece.write, String.toList_ofList,
            List.append_assoc]
      · cases h
    · cases h

/-- A tag is read up to where it ends. -/
theorem readFrom_tag {read tag rest : List Char} (htag : ∀ c ∈ tag, (c != '>') = true) :
    readFrom (some read) (tag ++ '>' :: rest) =
      (do return (← tag? (read.reverse ++ tag)) :: (← readFrom none rest)) := by
  induction tag generalizing read with
  | nil =>
    rw [List.append_nil, List.nil_append, readFrom]
    rfl
  | cons c tag ih =>
    obtain ⟨hc, htag⟩ := List.forall_mem_cons.mp htag
    have hne : (c == '>') = false := by simpa using hc
    rw [List.cons_append, readFrom, hne, if_neg Bool.false_ne_true, ih htag, List.reverse_cons,
      List.append_assoc]
    rfl

theorem ne_gt_of_isBare {c : Char} (hc : isBare c = true) : (c != '>') = true := by
  simp only [isBare, Bool.and_eq_true] at hc
  exact hc.1.2

/-- The character that a piece is. -/
def Piece.char? : Piece → Option Char
  | .char c => some c
  | _ => none

/-- **A clean piece is a tag**, which ends where its first closing bracket stands, **or a
    character** that no tag begins with. -/
theorem Piece.tag_or_char {p : Piece} (hp : p.IsClean) :
    (∃ tag, p.write = '<' :: tag ++ ['>'] ∧ (∀ c ∈ tag, (c != '>') = true) ∧ tag? tag = some p ∧
      p.char? = none) ∨
    ∃ c, p = .char c ∧ isBare c = true ∧ (c == '<') = false := by
  cases p with
  | opening cls =>
    refine .inl ⟨_, rfl, fun c hc => ?_, tag?_opening hp, rfl⟩
    rcases List.mem_append.mp hc with hc | hc
    · rcases List.mem_append.mp hc with hc | hc
      · exact List.all_eq_true.mp (rfl : Piece.tagStart.all (· != '>') = true) c hc
      · exact ne_gt_of_isBare (hp c hc)
    · rw [List.mem_singleton.mp hc]
      rfl
  | closing =>
    exact .inl ⟨_, rfl, List.all_eq_true.mp (rfl : Piece.tagEnd.all (· != '>') = true),
      tag?_tagEnd, rfl⟩
  | char c =>
    refine .inr ⟨c, rfl, hp, beq_eq_false_iff_ne.mpr ?_⟩
    rintro rfl
    cases hp

/-- **A piece that is written is read as it is.** -/
theorem readFrom_write {p : Piece} (hp : p.IsClean) (rest : List Char) :
    readFrom none (p.write ++ rest) = (readFrom none rest).map (p :: ·) := by
  obtain ⟨tag, hwrite, hgt, htag, -⟩ | ⟨c, rfl, hbare, hlt⟩ := p.tag_or_char hp
  · rw [hwrite, List.append_assoc, List.cons_append, readFrom, beq_self_eq_true, if_pos rfl]
    show readFrom (some []) (tag ++ '>' :: rest) = _
    rw [readFrom_tag hgt, List.reverse_nil, List.nil_append, htag]
    cases readFrom none rest <;> rfl
  · show readFrom none (c :: rest) = _
    rw [readFrom, hlt, if_neg Bool.false_ne_true, if_pos hbare]

theorem readFrom_flatMap {ps : List Piece} (hps : ∀ p ∈ ps, p.IsClean) :
    readFrom none (ps.flatMap Piece.write) = some ps := by
  induction ps with
  | nil => rfl
  | cons p ps ih =>
    obtain ⟨hp, hps⟩ := List.forall_mem_cons.mp hps
    rw [List.flatMap_cons, readFrom_write hp, ih hps]
    rfl

/-- Markup that is read, after what has been read of a tag, is what its pieces are written as. -/
theorem write_of_readFrom {cs : List Char} {tag : Option (List Char)} {ps : List Piece}
    (h : readFrom tag cs = some ps) : (∀ p ∈ ps, p.IsClean) ∧
      (tag.elim [] fun tag => '<' :: tag.reverse) ++ cs = ps.flatMap Piece.write := by
  induction cs generalizing tag ps with
  | nil =>
    cases tag with
    | none =>
      cases h
      exact ⟨fun _ hp => (by cases hp), rfl⟩
    | some tag => cases h
  | cons c cs ih =>
    unfold readFrom at h
    cases tag with
    | none =>
      simp only at h
      split at h
      · rename_i hlt
        rw [eq_of_beq hlt]
        exact ih h
      · split at h
        · rename_i hbare
          obtain ⟨others, hothers, rfl⟩ := Option.map_eq_some_iff.mp h
          obtain ⟨hclean, hwrite⟩ := ih hothers
          exact ⟨List.forall_mem_cons.mpr ⟨hbare, hclean⟩, congrArg (c :: ·) hwrite⟩
        · cases h
    | some tag =>
      simp only at h
      split at h
      · rename_i hgt
        obtain ⟨p, hp, h⟩ := Option.bind_eq_some_iff.mp h
        obtain ⟨others, hothers, h⟩ := Option.bind_eq_some_iff.mp h
        cases h
        obtain ⟨hclean, hwrite⟩ := ih hothers
        obtain ⟨hpclean, hpwrite⟩ := write_of_tag? hp
        refine ⟨List.forall_mem_cons.mpr ⟨hpclean, hclean⟩, ?_⟩
        rw [List.flatMap_cons, ← hwrite, hpwrite, eq_of_beq hgt]
        simp
      · obtain ⟨hclean, hwrite⟩ := ih h
        refine ⟨hclean, ?_⟩
        rw [← hwrite]
        simp

/-- **Markup is read as the pieces that it is written of**, if these are clean. -/
theorem read_eq_some_iff {s : String} {ps : List Piece} :
    read s = some ps ↔ (∀ p ∈ ps, p.IsClean) ∧ s.toList = ps.flatMap Piece.write := by
  refine ⟨fun h => write_of_readFrom h, fun ⟨hclean, hwrite⟩ => ?_⟩
  rw [read, hwrite]
  exact readFrom_flatMap hclean

theorem onlySpans_iff {s : String} : OnlySpans s ↔ (read s).isSome = true := by
  rw [Option.isSome_iff_exists]
  exact exists_congr fun ps => read_eq_some_iff.symm

instance (s : String) : Decidable (OnlySpans s) := decidable_of_iff _ onlySpans_iff.symm

/-! ## 4. Text read back -/

/-- What is left of markup without its tags, given whether a tag has been left open: everything from
    where one begins to where it ends goes. -/
def withoutTagsFrom : Bool → List Char → List Char
  | _, [] => []
  | true, c :: cs => withoutTagsFrom (c != '>') cs
  | false, c :: cs =>
    if c == '<' then withoutTagsFrom true cs else c :: withoutTagsFrom false cs

/-- Characters with the five entities decoded. -/
def decodeEntities : List Char → List Char
  | '&' :: 'a' :: 'm' :: 'p' :: ';' :: cs => '&' :: decodeEntities cs
  | '&' :: 'l' :: 't' :: ';' :: cs => '<' :: decodeEntities cs
  | '&' :: 'g' :: 't' :: ';' :: cs => '>' :: decodeEntities cs
  | '&' :: 'q' :: 'u' :: 'o' :: 't' :: ';' :: cs => '"' :: decodeEntities cs
  | '&' :: '#' :: 'x' :: '2' :: '7' :: ';' :: cs => '\'' :: decodeEntities cs
  | c :: cs => c :: decodeEntities cs
  | [] => []

/-- **The text of markup**: its tags go, and its entities are decoded. -/
def plainText (s : String) : String :=
  String.ofList (decodeEntities (withoutTagsFrom false s.toList))

theorem decodeEntities_cons {c : Char} (hc : c ≠ '&') (cs : List Char) :
    decodeEntities (c :: cs) = c :: decodeEntities cs := by
  rw [decodeEntities]
  all_goals exact fun _ heq => absurd heq hc

/-- **What stands for a character is decoded to it.** -/
theorem decodeEntities_escapeChar (c : Char) (cs : List Char) :
    decodeEntities (escapeChar c ++ cs) = c :: decodeEntities cs := by
  unfold escapeChar
  split
  · rfl
  · rfl
  · rfl
  · rfl
  · rfl
  · rename_i hamp _ _ _ _
    exact decodeEntities_cons hamp cs

theorem decodeEntities_flatMap (cs : List Char) :
    decodeEntities (cs.flatMap escapeChar) = cs := by
  induction cs with
  | nil => rfl
  | cons c cs ih => rw [List.flatMap_cons, decodeEntities_escapeChar, ih]

theorem withoutTagsFrom_tag {tag rest : List Char} (htag : ∀ c ∈ tag, (c != '>') = true) :
    withoutTagsFrom true (tag ++ '>' :: rest) = withoutTagsFrom false rest := by
  induction tag with
  | nil => rfl
  | cons c tag ih =>
    obtain ⟨hc, htag⟩ := List.forall_mem_cons.mp htag
    rw [List.cons_append, withoutTagsFrom, hc, ih htag]

/-- **What is left of a piece without its tags is its character.** -/
theorem withoutTagsFrom_write {p : Piece} (hp : p.IsClean) (rest : List Char) :
    withoutTagsFrom false (p.write ++ rest) = p.char?.toList ++ withoutTagsFrom false rest := by
  obtain ⟨tag, hwrite, hgt, -, hchar⟩ | ⟨c, rfl, -, hlt⟩ := p.tag_or_char hp
  · rw [hwrite, hchar, List.append_assoc, List.cons_append, withoutTagsFrom, beq_self_eq_true,
      if_pos rfl]
    exact withoutTagsFrom_tag hgt
  · show withoutTagsFrom false (c :: rest) = _
    rw [withoutTagsFrom, hlt, if_neg Bool.false_ne_true]
    rfl

theorem withoutTagsFrom_flatMap {ps : List Piece} (hps : ∀ p ∈ ps, p.IsClean) :
    withoutTagsFrom false (ps.flatMap Piece.write) = ps.filterMap Piece.char? := by
  induction ps with
  | nil => rfl
  | cons p ps ih =>
    obtain ⟨hp, hps⟩ := List.forall_mem_cons.mp hps
    rw [List.flatMap_cons, withoutTagsFrom_write hp, ih hps, List.filterMap_cons]
    cases p.char? <;> rfl

/-! ## 5. Spans inside spans -/

/-- A span with the spans inside it. -/
inductive Element where
  | span (cls : String) (inner : List Element)

/-- The spans of some pieces, given those that are open, the innermost first, each with the spans
    before it; and the spans since then, the last one first. There is no answer if one is closed
    that is not open, or one stays open. -/
def nestFrom : List (String × List Element) → List Element → List Piece → Option (List Element)
  | [], before, [] => some before.reverse
  | _ :: _, _, [] => none
  | opened, before, .char _ :: ps => nestFrom opened before ps
  | opened, before, .opening cls :: ps => nestFrom ((cls, before) :: opened) [] ps
  | [], _, .closing :: _ => none
  | (cls, outer) :: opened, before, .closing :: ps =>
    nestFrom opened (.span cls before.reverse :: outer) ps

/-- **How the tags of markup nest**, if they are tags of spans and every one has its partner. -/
def elements? (s : String) : Option (List Element) := (read s).bind (nestFrom [] [])

end Highlight.Html

namespace Highlight.Token

open Highlight.Html (Element IsBare Piece cssClass)

variable {lead lead' : String} {n : Node} {events events' : List Event}

/-! ## 6. Nodes -/

mutual

/-- The pieces of markup that a node is written as. -/
def Node.pieces (lead : String) : Node → List Piece
  | .text s => (s.toList.flatMap Html.escapeChar).map .char
  | .scope none children => nodesPieces lead children
  | .scope (some label) children =>
    .opening (cssClass label lead) :: nodesPieces lead children ++ [.closing]

/-- The pieces of markup that nodes are written as, in order. -/
def nodesPieces (lead : String) : List Node → List Piece
  | [] => []
  | n :: ns => n.pieces lead ++ nodesPieces lead ns

end

mutual

/-- **The labelled nodes under a node**, itself included, as spans inside spans. -/
def Node.outline (lead : String) : Node → List Element
  | .text _ => []
  | .scope none children => nodesOutline lead children
  | .scope (some label) children => [.span (cssClass label lead) (nodesOutline lead children)]

/-- The labelled nodes under nodes, in order. -/
def nodesOutline (lead : String) : List Node → List Element
  | [] => []
  | n :: ns => n.outline lead ++ nodesOutline lead ns

end

mutual

theorem render_eq (lead : String) (n : Node) :
    (n.render lead).toList = (n.pieces lead).flatMap Piece.write :=
  match n with
  | .text s => by
    show (Html.escape s).toList = ((s.toList.flatMap Html.escapeChar).map Piece.char).flatMap _
    rw [Html.escape, String.toList_ofList, List.flatMap_map]
    exact (List.flatMap_singleton' _).symm
  | .scope none children => renderNodes_eq lead children
  | .scope (some label) children => by
    have hstart : "<span class=\"".toList = '<' :: Piece.tagStart := rfl
    have hstop : "\">".toList = ['"'] ++ ['>'] := rfl
    have hend : "</span>".toList = '<' :: Piece.tagEnd ++ ['>'] := rfl
    show ("<span class=\"" ++ cssClass label lead ++ "\">" ++ renderNodes lead children ++
      "</span>").toList =
        (Piece.opening _ :: nodesPieces lead children ++ [Piece.closing]).flatMap _
    rw [List.cons_append, List.flatMap_cons, List.flatMap_append, ← renderNodes_eq lead children]
    simp only [String.toList_append, hstart, hstop, hend, Piece.write, List.cons_append,
      List.append_assoc, List.flatMap_cons, List.flatMap_nil, List.append_nil]

/-- **A node is rendered as its pieces are written.** -/
theorem renderNodes_eq (lead : String) (ns : List Node) :
    (renderNodes lead ns).toList = (nodesPieces lead ns).flatMap Piece.write :=
  match ns with
  | [] => rfl
  | n :: ns => by
    show (n.render lead ++ renderNodes lead ns).toList = (n.pieces lead ++ _).flatMap _
    rw [String.toList_append, render_eq lead n, renderNodes_eq lead ns, List.flatMap_append]

end

mutual

theorem chars_pieces (lead : String) (n : Node) :
    (n.pieces lead).filterMap Piece.char? = n.textOf.toList.flatMap Html.escapeChar :=
  match n with
  | .text s => by
    show ((s.toList.flatMap Html.escapeChar).map Piece.char).filterMap Piece.char? = _
    rw [List.filterMap_map]
    exact List.filterMap_some
  | .scope none children => chars_nodesPieces lead children
  | .scope (some label) children => by
    show (Piece.opening _ :: nodesPieces lead children ++ [Piece.closing]).filterMap _ = _
    rw [List.cons_append, List.filterMap_cons, List.filterMap_append]
    exact (List.append_nil _).trans (chars_nodesPieces lead children)

/-- **The characters between the tags of nodes are those of their text, as HTML content.** -/
theorem chars_nodesPieces (lead : String) (ns : List Node) :
    (nodesPieces lead ns).filterMap Piece.char? =
      (nodesText ns).toList.flatMap Html.escapeChar :=
  match ns with
  | [] => rfl
  | n :: ns => by
    show (n.pieces lead ++ nodesPieces lead ns).filterMap _ =
      (n.textOf ++ nodesText ns).toList.flatMap _
    rw [List.filterMap_append, chars_pieces lead n, chars_nodesPieces lead ns,
      String.toList_append, List.flatMap_append]

end

/-- Characters make no spans. -/
theorem nestFrom_chars (opened : List (String × List Element)) (before : List Element)
    (cs : List Char) (ps : List Piece) :
    Html.nestFrom opened before (cs.map .char ++ ps) = Html.nestFrom opened before ps := by
  induction cs with
  | nil => rfl
  | cons c cs ih => rw [List.map_cons, List.cons_append, Html.nestFrom, ih]

mutual

theorem nestFrom_pieces (lead : String) (opened : List (String × List Element))
    (before : List Element) (n : Node) (ps : List Piece) :
    Html.nestFrom opened before (n.pieces lead ++ ps) =
      Html.nestFrom opened ((n.outline lead).reverse ++ before) ps :=
  match n with
  | .text s => nestFrom_chars opened before _ ps
  | .scope none children => nestFrom_nodesPieces lead opened before children ps
  | .scope (some label) children => by
    show Html.nestFrom opened before
      (Piece.opening _ :: nodesPieces lead children ++ [.closing] ++ ps) = _
    rw [List.cons_append, List.cons_append, List.append_assoc, Html.nestFrom,
      nestFrom_nodesPieces lead _ [] children]
    show Html.nestFrom _ _ (.closing :: ps) = _
    rw [Html.nestFrom, List.append_nil, List.reverse_reverse]
    rfl

/-- **The tags of nodes nest as their labelled nodes do.** -/
theorem nestFrom_nodesPieces (lead : String) (opened : List (String × List Element))
    (before : List Element) (ns : List Node) (ps : List Piece) :
    Html.nestFrom opened before (nodesPieces lead ns ++ ps) =
      Html.nestFrom opened ((nodesOutline lead ns).reverse ++ before) ps :=
  match ns with
  | [] => rfl
  | n :: ns => by
    show Html.nestFrom opened before (n.pieces lead ++ nodesPieces lead ns ++ ps) =
      Html.nestFrom opened ((n.outline lead ++ nodesOutline lead ns).reverse ++ before) ps
    rw [List.append_assoc, nestFrom_pieces lead opened before n,
      nestFrom_nodesPieces lead opened _ ns, List.reverse_append, List.append_assoc]

end

theorem mem_nodesPieces {ns : List Node} {p : Piece} (hp : p ∈ nodesPieces lead ns) :
    ∃ n ∈ ns, p ∈ n.pieces lead := by
  induction ns with
  | nil => cases hp
  | cons n ns ih =>
    rcases List.mem_append.mp hp with hp | hp
    · exact ⟨n, List.mem_cons_self, hp⟩
    · obtain ⟨m, hm, hp⟩ := ih hp
      exact ⟨m, List.mem_cons_of_mem n hm, hp⟩

/-- **A node is written in tags of spans, of the classes of its labels, and in characters that are
    none of tags.** -/
theorem within_of_mem_pieces {P : String → Prop} (hn : n.Within P) :
    ∀ p ∈ n.pieces lead, p.Within fun cls => ∃ l, P l ∧ cls = cssClass l lead := by
  induction hn with
  | text s =>
    intro p hp
    obtain ⟨c, hc, rfl⟩ := List.mem_map.mp hp
    obtain ⟨d, -, hc⟩ := List.mem_flatMap.mp hc
    exact Html.isBare_escapeChar d c hc
  | @scope label children hlabel _ ih =>
    have hchildren : ∀ p ∈ nodesPieces lead children,
        p.Within fun cls => ∃ l, P l ∧ cls = cssClass l lead := fun p hp => by
      obtain ⟨m, hm, hp⟩ := mem_nodesPieces hp
      exact ih m hm p hp
    cases label with
    | none => exact hchildren
    | some label =>
      intro p hp
      rcases List.mem_append.mp hp with hp | hp
      · rcases List.mem_cons.mp hp with rfl | hp
        · exact ⟨label, hlabel label rfl, rfl⟩
        · exact hchildren p hp
      · rw [List.mem_singleton.mp hp]
        trivial

/-- Where no label has characters of tags, a node is written in clean pieces. -/
theorem isClean_of_mem_pieces (hlead : IsBare lead) (hn : n.Within IsBare) :
    ∀ p ∈ n.pieces lead, p.IsClean := fun p hp =>
  (within_of_mem_pieces hn p hp).mono fun _ ⟨_, hl, heq⟩ => heq ▸ Html.isBare_cssClass hl hlead

/-! ## 7. Trees -/

/-- **A tree is written with no tags but those of spans, of the classes of its labels.** -/
theorem spansOf_toHtml {P : String → Prop} {t : TokenTree} (ht : t.Within P) :
    Html.SpansOf (fun cls => ∃ l, P l ∧ cls = cssClass l lead) (t.toHtml lead) :=
  ⟨_, within_of_mem_pieces (TokenTree.within_root ht), render_eq lead t.root⟩

theorem elements?_toHtml (hlead : IsBare lead) {t : TokenTree} (ht : t.Within IsBare) :
    Html.elements? (t.toHtml lead) = some (t.root.outline lead) := by
  have hread : Html.read (t.toHtml lead) = some (t.root.pieces lead) := Html.read_eq_some_iff.mpr
    ⟨isClean_of_mem_pieces hlead (TokenTree.within_root ht), render_eq lead t.root⟩
  have hnest := nestFrom_pieces lead [] [] t.root []
  rw [List.append_nil, List.append_nil] at hnest
  rw [Html.elements?, hread, Option.bind_some, hnest, Html.nestFrom, List.reverse_reverse]

theorem plainText_toHtml (hlead : IsBare lead) {t : TokenTree} (ht : t.Within IsBare) :
    Html.plainText (t.toHtml lead) = t.root.textOf := by
  have hclean := isClean_of_mem_pieces hlead (TokenTree.within_root ht)
  rw [Html.plainText, TokenTree.toHtml, render_eq, Html.withoutTagsFrom_flatMap hclean,
    chars_pieces, Html.decodeEntities_flatMap, String.ofList_toList]

/-- **The HTML of a tree reads back.** Where events name no label with characters of tags, and what
    goes before class names has none either, the tags of the HTML nest as the labelled nodes of the
    finished tree do; without its tags and with its entities decoded, it is the text of the tree,
    whatever characters this has. So trees with different texts are never written alike. -/
theorem html_reads_back (hlead : IsBare lead) (hevents : ∀ e ∈ events, e.Within IsBare) :
    let t := (TokenTree.ofEvents events).finish
    Html.elements? (t.toHtml lead) = some (t.root.outline lead) ∧
      Html.plainText (t.toHtml lead) = t.root.textOf ∧
      ∀ lead' events', IsBare lead' → (∀ e ∈ events', e.Within IsBare) →
        let t' := (TokenTree.ofEvents events').finish
        t'.root.textOf ≠ t.root.textOf → t'.toHtml lead' ≠ t.toHtml lead := by
  have hbare {events : List Event} (hevents : ∀ e ∈ events, e.Within IsBare) :
      (TokenTree.ofEvents events).finish.Within IsBare :=
    TokenTree.within_finish (TokenTree.within_ofEvents hevents)
  refine ⟨elements?_toHtml hlead (hbare hevents), plainText_toHtml hlead (hbare hevents),
    fun lead' events' hlead' hevents' hne heq => hne ?_⟩
  rw [← plainText_toHtml hlead' (hbare hevents'), heq, plainText_toHtml hlead (hbare hevents)]

/-- A text that looks like markup, told in a scope that stays open and in a nested run. -/
def disguised : List Event :=
  [.opening "title.class", .text "</span>&lt;", .nested (some "xml") [.text "\"&amp;'"]]

/-- A text that looks like markup reads back, and is not written as another one is. -/
theorem disguised_text_reads_back :
    ((TokenTree.ofEvents disguised).finish.toHtml "hljs-" =
      "<span class=\"hljs-title class_\">&lt;/span&gt;&amp;lt;" ++
        "<span class=\"language-xml\">&quot;&amp;amp;&#x27;</span></span>") ∧
    Html.plainText ((TokenTree.ofEvents disguised).finish.toHtml "hljs-") =
      "</span>&lt;\"&amp;'" ∧
    (TokenTree.ofEvents [.text "<"]).finish.toHtml "" ≠
      (TokenTree.ofEvents disguised).finish.toHtml "hljs-" := by
  have hdisguised : ∀ e ∈ disguised, e.Within IsBare := by
    intro e he
    simp only [disguised, List.mem_cons, List.not_mem_nil, or_false] at he
    rcases he with rfl | rfl | rfl
    · exact .opening (by decide)
    · exact .text _
    · refine .nested (fun l hl => ?_) fun e he => ?_
      · cases hl
        decide
      · rw [List.mem_singleton.mp he]
        exact .text _
  have hlt : ∀ e ∈ [Event.text "<"], e.Within IsBare := fun e he => by
    rw [List.mem_singleton.mp he]
    exact .text _
  have hlead : IsBare "hljs-" := by decide
  obtain ⟨-, hplain, hunlike⟩ := html_reads_back hlead hdisguised
  refine ⟨by decide +kernel, hplain.trans (by decide +kernel), ?_⟩
  exact hunlike "" _ (by decide) hlt (by decide +kernel)

end Highlight.Token
