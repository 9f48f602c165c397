/-!
# Text and class names in HTML

* `escape` -- a text as HTML content;
* `cssClass` -- the class attribute of a scope. A scope is a path of names between dots; each name
  after the first gets as many underscores as it has names before it.
-/

namespace Highlight.Html

/-- One character as HTML content. -/
def escapeChar : Char → List Char
  | '&' => ['&', 'a', 'm', 'p', ';']
  | '<' => ['&', 'l', 't', ';']
  | '>' => ['&', 'g', 't', ';']
  | '"' => ['&', 'q', 'u', 'o', 't', ';']
  | '\'' => ['&', '#', 'x', '2', '7', ';']
  | c => [c]

/-- A text as HTML content. -/
def escape (s : String) : String := String.ofList (s.toList.flatMap escapeChar)

/-- A list of characters cut at every dot. -/
def dotted : List Char → List (List Char)
  | [] => [[]]
  | c :: cs =>
    if c == '.' then [] :: dotted cs
    else
      match dotted cs with
      | [] => [[c]]
      | name :: names => (c :: name) :: names

/-- The names after the first of a path, each with its underscores. -/
def furtherClasses (depth : Nat) : List (List Char) → List Char
  | [] => []
  | name :: names =>
    ' ' :: name ++ List.replicate depth '_' ++ furtherClasses (depth + 1) names

/-- The mark of a scope that stands for a language. -/
def languageMark : List Char := "language:".toList

/-- The rest of a list that begins with `start`. -/
def stripped? : List Char → List Char → Option (List Char)
  | [], cs => some cs
  | _ :: _, [] => none
  | a :: start, c :: cs => if a == c then stripped? start cs else none

/-- The class attribute of a scope; `lead` goes before its first name. -/
def cssClass (scope lead : String) : String :=
  match stripped? languageMark scope.toList with
  | some language => String.ofList ("language-".toList ++ language)
  | none =>
    match dotted scope.toList with
    | [] => lead
    | name :: names => String.ofList (lead.toList ++ name ++ furtherClasses 1 names)

end Highlight.Html
