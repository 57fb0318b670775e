/-!
# Data notation

Structured data is read from text in JSON.  A document is held as it was written where that
matters to its reader: the members of an object keep their order and their repetitions, a number
keeps its characters, and a string with a surrogate outside a pair is kept apart as one that has no
text.

## Main definitions

* `Json`: a document
* `Json.text?`, `Json.flag?`, `Json.integer?`, `Json.items?`: readers for one kind of document
* `Json.fields?`: the fields of a record, written by name or by position
-/

namespace Paradigm.Text

/-- The content of a string of a document; there is none if the escapes in it leave a surrogate
outside a pair. -/
abbrev JsonText := Option String

/-- A document. -/
inductive Json where
  | null
  | bool (value : Bool)
  /-- A number, by the characters that it was written with. -/
  | number (lexeme : List Char)
  | string (text : JsonText)
  | array (items : List Json)
  | object (members : List (JsonText × Json))

namespace Json

/-- The text of a string. -/
def text? : Json → Option String
  | string t => t
  | _ => none

/-- The value of a truth value. -/
def flag? : Json → Option Bool
  | bool b => some b
  | _ => none

/-- The items of an array. -/
def items? : Json → Option (List Json)
  | array items => some items
  | _ => none

/-- The value of decimal digits, at least one. -/
def natOfDigits? : List Char → Option Nat
  | [] => none
  | cs =>
    if cs.all Char.isDigit then some (cs.foldl (fun n c => n * 10 + (c.toNat - 48)) 0) else none

/-- The value of a number written as an integer.  Minus zero is no integer, for it is read as a
fraction. -/
def integer? : Json → Option Int
  | number ('-' :: ds) => (natOfDigits? ds).bind fun n => if n = 0 then none else some (-n)
  | number ds => (natOfDigits? ds).map Int.ofNat
  | _ => none

/-- The items of an array of texts. -/
def texts? (j : Json) : Option (List String) := j.items? >>= List.mapM text?

/-- The members of an object, if all names have a text. -/
def members? : Json → Option (List (String × Json))
  | object members => members.mapM fun (name, value) => name.map (·, value)
  | _ => none

/-- The values that the members of an object give to a field. -/
def valuesOf (name : String) (members : List (String × Json)) : List Json :=
  (members.filter (·.1 == name)).map Prod.snd

/-- The fields of a record in the order of `names`, each with its value if it is given.  A record is
an object, in which other members are ignored and no field may be given twice, or an array of the
values of the first fields. -/
def fields? (names : List String) : Json → Option (List (Option Json))
  | array items =>
    if items.length ≤ names.length then
      some ((List.range names.length).map fun i => items[i]?)
    else none
  | j => do
    let members ← j.members?
    names.mapM fun name =>
      match valuesOf name members with
      | [] => some none
      | [value] => some (some value)
      | _ => none

/-- The value of a field that may be left out. -/
def optional {α : Type} (default : α) (read : Json → Option α) : Option Json → Option α
  | none => some default
  | some j => read j

end Json

end Paradigm.Text
