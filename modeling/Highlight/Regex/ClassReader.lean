import Highlight.Regex.Reading

/-!
# Reading a bracketed class

Between brackets stand characters, ranges, class escapes, further classes in brackets, and `&&`
between sets that are to be intersected. Most characters lose their meaning there; a hyphen keeps
its own only between two characters.

* `ClassToken`, `classToken` -- what stands next in a class;
* `Pending` -- what has been read of a range that may be coming;
* `rangeOf` -- the members of a range, of which some are bytes that no text has alone;
* `readClass` -- a class, from after its opening bracket up to and with its closing one.
-/

namespace Highlight.Regex

/-! ## 1. Tokens -/

/-- What stands next in a class. -/
inductive ClassToken where
  /-- The text ends. -/
  | finish
  /-- A closing bracket. -/
  | close
  /-- A hyphen. -/
  | dash
  /-- An opening bracket. -/
  | inner
  /-- Two ampersands. -/
  | both
  /-- A character or a byte; `bare` when it was written without a backslash. -/
  | value (w : Written) (bare : Bool)
  /-- A set with a name. -/
  | set (s : CharSet)

/-- The name between `[:` and `:]`, from after the first colon on: whether it is negated, its
    letters, and what follows. Without a letter, or with anything else in it, it is no name. -/
def nameBetweenColons? (cs : List Char) : Option (Bool × List Char × List Char) :=
  let (negated, cs) := match cs with
    | '^' :: cs => (true, cs)
    | cs => (false, cs)
  let name := cs.takeWhile Unicode.isAlphabetic
  match name, cs.drop name.length with
  | _ :: _, ':' :: ']' :: after => some (negated, name, after)
  | _, _ => none

/-- The token after a backslash in a class. -/
def escapedClassToken : List Char → Except Fault (ClassToken × List Char)
  | [] => .error .escapeCut
  | c :: cs =>
    match classEscape? c with
    | some (cls, negated) => .ok (.set (classSet cls negated), cs)
    | none =>
      match c, cs with
      | 'p', '\x7b' :: cs => do
        let (s, cs) ← readProperty false cs
        return (.set s, cs)
      | 'P', '\x7b' :: cs => do
        let (s, cs) ← readProperty true cs
        return (.set s, cs)
      | _, _ => do
        match ← (if c == 'x' then readBraced cs else .ok none), ← readByte ('\\' :: c :: cs) with
        | some (d, after), _ => return (.value (.char d) false, after)
        | none, some (b, form, after) =>
          let (w, after) ← readBytes (some form) b after
          return (.value w false, after)
        | none, none =>
          let (d, after) ← readEscape (c :: cs)
          return (.value (.char d) false, after)

/-- What stands next in a class, and what follows it. -/
def nextClassToken : List Char → Except Fault (ClassToken × List Char)
  | [] => .ok (.finish, [])
  | ']' :: cs => .ok (.close, cs)
  | '-' :: cs => .ok (.dash, cs)
  | '\\' :: cs => escapedClassToken cs
  | '[' :: ':' :: cs =>
    match nameBetweenColons? cs with
    | some (negated, name, after) =>
      match CharClass.names.lookup name with
      | some cls => .ok (.set (classSet cls negated), after)
      | none => .error .classUnknown
    | none => .ok (.inner, ':' :: cs)
  | '[' :: cs => .ok (.inner, cs)
  | '&' :: '&' :: cs => .ok (.both, cs)
  | c :: cs => .ok (.value (.char c) true, cs)

/-- Takes the next token of a class. -/
def classToken : Reading ClassToken := do
  let (token, cs) ← nextClassToken (← rest)
  goOn cs
  return token

/-- The next token of a class, which stays to be read. -/
def peekClassToken : Reading ClassToken := do return (← nextClassToken (← rest)).1

/-! ## 2. Ranges -/

/-- The place of a character or byte in ranges. -/
def Written.code : Written → Nat
  | .char c => c.toNat
  | .byte b => b

/-- Whether a character or byte takes a single byte. -/
def Written.isSingle : Written → Bool
  | .char c => c.toNat < 0x80
  | .byte _ => true

/-- The members of a class that is given by one character or byte. A byte is no character. -/
def Written.asSet : Written → CharSet
  | .char c => .single c
  | .byte _ => .empty

/-- The members of a range. Between single bytes only those of ASCII are characters. -/
def rangeOf (first last : Written) : CharSet :=
  if first.isSingle && last.isSingle then
    if first.code < 0x80 then .range (Char.ofNat first.code) (Char.ofNat (min last.code 0x7F))
    else .empty
  else .range (Char.ofNat first.code) (Char.ofNat last.code)

/-- What has been read of a range that may be coming. -/
inductive Pending where
  /-- Nothing: the class, or one of the sets it intersects, begins here. -/
  | start
  /-- A character that may begin a range. -/
  | value (w : Written)
  /-- A named set, which begins no range. -/
  | named
  /-- A character and a hyphen: the next character ends the range. -/
  | range (first : Written)
  /-- Nothing: a range, or a class in brackets, has just ended. -/
  | complete

/-- A set with the character that no longer can begin a range. -/
def Pending.settle (acc : CharSet) : Pending → CharSet
  | .value w => .union acc w.asSet
  | _ => acc

/-- The set and what is pending after one more character. -/
def Pending.take (acc : CharSet) (w : Written) : Pending → Except Fault (Pending × CharSet)
  | .range first =>
    if w.code < first.code then .error .rangeEmpty
    else .ok (.complete, .union acc (rangeOf first w))
  | p => .ok (.value w, p.settle acc)

/-- The set and what is pending after a named set. -/
def Pending.takeSet (acc s : CharSet) : Pending → Except Fault (Pending × CharSet)
  | .range _ => .error .rangeOpen
  | p => .ok (.named, .union (p.settle acc) s)

/-- The set and what is pending after a hyphen, by the token that comes next. After a character it
    makes a range unless the set ends; after a named set it has to end the set. -/
def Pending.takeDash (acc : CharSet) (next : ClassToken) :
    Pending → Except Fault (Pending × CharSet)
  | .value w =>
    match next with
    | .close | .both => Pending.take acc (.char '-') (.value w)
    | _ => .ok (.range w, acc)
  | .named =>
    match next with
    | .close | .both => Pending.take acc (.char '-') .named
    | _ => .error .rangeUnmatched
  | p => p.take acc (.char '-')

/-- The set with those before it that it is to be intersected with. -/
def meet (before : Option CharSet) (s : CharSet) : CharSet :=
  match before with
  | some t => .inter t s
  | none => s

/-! ## 3. Classes -/

mutual

/-- A class from after its opening bracket on: whether it is negated, and its members. A bracket
    that closes the class at once stands for itself when another one follows. Classes and groups
    nest at most `maxNesting` deep, and `depth` many are open. -/
def readClass : Nat → Nat → Reading (Bool × CharSet)
  | 0, _ => throw .tooDeep
  | fuel + 1, depth => do
    if maxNesting ≤ depth then throw .tooDeep
    let mut token ← classToken
    let mut negated := false
    if let .value (.char '^') true := token then
      negated := true
      token ← classToken
    if let .close := token then
      unless (← rest).contains ']' do throw .classEmpty
      token := .value (.char ']') false
    return (negated, ← readMembers fuel (depth + 1) .start .empty none token)

/-- The members of a class from one token on: `acc` holds those read so far, `before` what they
    are to be intersected with. -/
def readMembers : Nat → Nat → Pending → CharSet → Option CharSet → ClassToken → Reading CharSet
  | 0, _, _, _, _, _ => throw .tooDeep
  | fuel + 1, depth, pending, acc, before, token => do
    match token with
    | .finish => throw .classUnclosed
    | .close => return meet before (pending.settle acc)
    | .value w _ =>
      let (pending, acc) ← pending.take acc w
      readMembers fuel depth pending acc before (← classToken)
    | .set s =>
      let (pending, acc) ← pending.takeSet acc s
      readMembers fuel depth pending acc before (← classToken)
    | .inner =>
      let (negated, s) ← readClass fuel depth
      let acc := .union (pending.settle acc) (if negated then .compl s else s)
      readMembers fuel depth .complete acc before (← classToken)
    | .both =>
      let before := some (meet before (pending.settle acc))
      readMembers fuel depth .start .empty before (← classToken)
    | .dash =>
      let next ← match pending with
        | .range _ => pure .finish
        | _ => peekClassToken
      let (pending, acc) ← pending.takeDash acc next
      readMembers fuel depth pending acc before (← classToken)

end

end Highlight.Regex
