import Highlight.Grammar.Language
import Highlight.Pattern.Combine

/-!
# Fragments that grammars share

Strings, comments, numbers and titles look alike in many languages.

* `Fragment.constants` -- pattern texts by name;
* `Fragment.comment`, `Fragment.shebang`, `Fragment.endSameAsBegin` -- modes made to measure;
* `Fragment.mode?` -- the ready-made modes by name. Each has one identity, the same in every
  grammar and in every place.
-/

namespace Highlight.Grammar.Fragment

/-! ## 1. Pattern texts -/

/-- Matches nowhere. -/
def matchNothing : String := "\\b\\B"

/-- A name made of letters and digits. -/
def ident : String := "[a-zA-Z]\\w*"

/-- A name that may begin with an underscore. -/
def underscoreIdent : String := "[a-zA-Z_]\\w*"

/-- A decimal number. -/
def number : String := "\\b\\d+(\\.\\d+)?"

/-- A number as most curly-brace languages write it. -/
def cNumber : String := "(-?)(\\b0[xX][a-fA-F0-9]+|(\\b\\d+(\\.\\d*)?|\\.\\d+)([eE][-+]?\\d+)?)"

/-- A binary number. -/
def binaryNumber : String := "\\b(0b[01]+)"

/-- The operators after which a slash begins a regular expression. -/
def regexpStarters : String :=
  "!|!=|!==|%|%=|&|&&|&=|\\*|\\*=|\\+|\\+=|,|-|-=|/=|/|:|;|<<|<<=|<=|<|===|==|=|>>>=|>>=|>=|>>>|>>"
    ++ "|>|\\?|\\[|\\\x7b|\\(|\\^|\\^=|\\||\\|=|\\|\\||~"

/-- The pattern texts by name. -/
def constants : List (String × String) :=
  [("MATCH_NOTHING_RE", matchNothing), ("IDENT_RE", ident),
   ("UNDERSCORE_IDENT_RE", underscoreIdent), ("NUMBER_RE", number), ("C_NUMBER_RE", cNumber),
   ("BINARY_NUMBER_RE", binaryNumber), ("RE_STARTERS_RE", regexpStarters)]

/-! ## 2. Modes made to measure -/

/-- The identity of the fragment with a name. -/
def identity (name : String) : Identity := [(name, 0)]

/-- A mode written inside the mode with identity `id`. -/
def inside (id : Identity) (i : Nat) (m : Mode) : Contained Mode := .mode ⟨("part", i) :: id, m⟩

/-- A word of ordinary English. -/
def englishWord : String :=
  Pattern.either
    ["I", "a", "is", "so", "us", "to", "at", "if", "in", "it", "on",
     "[A-Za-z]+['](d|ve|re|ll|t|s|n)", "[A-Za-z]+[-][a-z]+", "[A-Za-z][a-z]\x7b2,\x7d"] false

/-- Remarks such as `TODO:` in a comment. -/
def docTag : Mode where
  scope := some (.single "doctag")
  beginPattern := some (.single "[ ]*(?=(TODO|FIXME|NOTE|BUG|OPTIMIZE|HACK|XXX):)")
  endPattern := some (.single "(TODO|FIXME|NOTE|BUG|OPTIMIZE|HACK|XXX):")
  excludeBegin := some true
  relevance := some 0

/-- Three English words in a row. -/
def prose : Mode where
  beginPattern := some (.single
    (Pattern.join ["[ ]+", "(", englishWord, "[.]?[:]?([.][ ]|[ ])", ")\x7b3\x7d"]))

/-- A comment between `opening` and `closing`, with every field that `extra` sets replaced. It
    contains remarks and prose besides what `extra` contains. -/
def comment (id : Identity) (opening closing : String) (extra : Mode) : Mode :=
  let base : Mode := {
    scope := some (.single "comment")
    beginPattern := some (.single opening)
    endPattern := some (.single closing)
    contains := some [] }
  let mode := base.inherit extra
  { mode with
    contains := some (mode.contains.getD [] ++ [inside id 0 docTag, inside id 1 prose]) }

/-- The hook that ignores a match anywhere but at the start of the text. -/
def onlyAtStart : Hook :=
  ⟨fun m data => ⟨if m.index == 0 then .proceed else .ignore, data, []⟩⟩

/-- The line that names the interpreter of a script, at the start of the text only; with `binary`,
    only a line that names it. -/
def shebang (binary : Option String) : Mode :=
  let start := "^#![ ]*\\/"
  { scope := some (.single "meta")
    beginPattern := some (.single (match binary with
      | some binary => Pattern.join [start, ".*\\b", binary, "\\b.*"]
      | none => start))
    endPattern := some (.single "$")
    relevance := some 0
    onBegin := some onlyAtStart }

/-- The name under which the text of the beginning is kept. -/
def beginKey : String := "_beginMatch"

/-- The hook that keeps what the first group of the beginning has read. -/
def keepBegin : Hook :=
  ⟨fun m data =>
    match m.group? 1 with
    | some text => ⟨.proceed, data.insert beginKey text, []⟩
    | none => ⟨.proceed, data, []⟩⟩

/-- The hook that ignores an end whose first group reads something else than what was kept. -/
def checkBegin : Hook :=
  ⟨fun m data => ⟨if data.get? beginKey == m.group? 1 then .proceed else .ignore, data, []⟩⟩

/-- A mode that ends only where the first group of its end reads what the first group of its
    beginning has read. -/
def endSameAsBegin (mode : Mode) : Mode :=
  { mode with onBegin := some keepBegin, onEnd := some checkBegin }

/-! ## 3. Ready-made modes -/

/-- A backslash and the character after it. -/
def backslashEscape : Mode where
  beginPattern := some (.single "\\\\[\\s\\S]")
  relevance := some 0

/-- `backslashEscape` as it stands inside other modes. -/
def sharedEscape : Contained Mode := .mode ⟨identity "BACKSLASH_ESCAPE", backslashEscape⟩

/-- A string between two quotes on one line. -/
def stringMode (quote : String) : Mode where
  scope := some (.single "string")
  beginPattern := some (.single quote)
  endPattern := some (.single quote)
  illegal := some (.single "\\n")
  contains := some [sharedEscape]

/-- Words that show that a text is prose. -/
def phrasalWords : Mode where
  beginPattern := some (.single
    ("\\b(a|an|the|are|I'm|isn't|don't|doesn't|won't|but|just|should|pretty|simply|enough|gonna"
      ++ "|going|wtf|so|such|will|you|your|they|like|more)\\b"))

/-- A number that a pattern reads. -/
def numberMode (pattern : String) : Mode where
  scope := some (.single "number")
  beginPattern := some (.single pattern)
  relevance := some 0

/-- A regular expression between slashes. -/
def regexpMode : Mode where
  scope := some (.single "regexp")
  beginPattern := some (.single "\\/(?=[^/\\n]*\\/)")
  endPattern := some (.single "\\/[gimuy]*")
  contains := some
    [sharedEscape,
     inside (identity "REGEXP_MODE") 0
      { beginPattern := some (.single "\\[")
        endPattern := some (.single "\\]")
        relevance := some 0
        contains := some [sharedEscape] }]

/-- A name that a pattern reads. -/
def titleMode (pattern : String) : Mode where
  scope := some (.single "title")
  beginPattern := some (.single pattern)
  relevance := some 0

/-- A dot and the name after it, so that the name is not read as a keyword. -/
def methodGuard : Mode where
  beginPattern := some (.single ("\\.\\s*" ++ underscoreIdent))
  relevance := some 0

/-- The ready-made modes by name. -/
def modes : List (String × Mode) :=
  [("BACKSLASH_ESCAPE", backslashEscape),
   ("APOS_STRING_MODE", stringMode "'"),
   ("QUOTE_STRING_MODE", stringMode "\""),
   ("PHRASAL_WORDS_MODE", phrasalWords),
   ("C_LINE_COMMENT_MODE", comment (identity "C_LINE_COMMENT_MODE") "//" "$" {}),
   ("C_BLOCK_COMMENT_MODE", comment (identity "C_BLOCK_COMMENT_MODE") "/\\*" "\\*/" {}),
   ("HASH_COMMENT_MODE", comment (identity "HASH_COMMENT_MODE") "#" "$" {}),
   ("NUMBER_MODE", numberMode number),
   ("C_NUMBER_MODE", numberMode cNumber),
   ("BINARY_NUMBER_MODE", numberMode binaryNumber),
   ("REGEXP_MODE", regexpMode),
   ("TITLE_MODE", titleMode ident),
   ("UNDERSCORE_TITLE_MODE", titleMode underscoreIdent),
   ("METHOD_GUARD", methodGuard)]

/-- The ready-made mode with a name, and its identity. -/
def mode? (name : String) : Option (Shared Mode) :=
  (modes.lookup name).map fun m => ⟨identity name, m⟩

end Highlight.Grammar.Fragment
