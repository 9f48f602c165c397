/-!
# JSON values

* `Json` -- a value as it is written: numbers keep their text, fields their order and their
  repetitions;
* `Json.readable` -- that a value is one throughout. A number beyond every float, a string
  with half a surrogate pair, and what nests too deep are well written and yet no values.
-/

namespace Highlight

/-- A value of JSON as it is written. -/
inductive Json where
  | null
  | bool (b : Bool)
  /-- A number, by the text that writes it. -/
  | number (text : List Char)
  | string (s : String)
  | array (items : List Json)
  | object (fields : List (String × Json))
  /-- Something well written that stands for no value. -/
  | unreadable

instance : Inhabited Json := ⟨.null⟩

namespace Json

mutual

/-- Whether a value is one throughout. -/
def readable : Json → Bool
  | .unreadable => false
  | .array items => readableItems items
  | .object fields => readableFields fields
  | _ => true

/-- Whether all items are values throughout. -/
def readableItems : List Json → Bool
  | [] => true
  | v :: vs => v.readable && readableItems vs

/-- Whether all fields hold values throughout. -/
def readableFields : List (String × Json) → Bool
  | [] => true
  | (_, v) :: fs => v.readable && readableFields fs

end

/-- The first value under a key. -/
def field? (key : String) : List (String × Json) → Option Json
  | [] => none
  | (k, v) :: fs => if k == key then some v else field? key fs

/-- Whether no key of `keys` is written twice. -/
def unrepeated (keys : List String) : List (String × Json) → Bool
  | [] => true
  | (k, _) :: fs => !(keys.contains k && fs.any (·.1 == k)) && unrepeated keys fs

/-- The value of a number written with digits alone, where it is at most `limit`. -/
def natural? (limit : Nat) : Json → Option Nat
  | .number text =>
    if text.all Char.isDigit then
      let n := text.foldl (fun n c => n * 10 + (c.toNat - 48)) 0
      if n ≤ limit then some n else none
    else none
  | _ => none

/-- A string. -/
def string? : Json → Option String
  | .string s => some s
  | _ => none

/-- A truth value. -/
def bool? : Json → Option Bool
  | .bool b => some b
  | _ => none

/-- A list of strings. -/
def strings? : Json → Option (List String)
  | .array items => items.mapM string?
  | _ => none

end Json

end Highlight
