import Paradigm.Text.Json.Token

/-!
# Parsing the data notation

The parser takes one token at a time.  What it has read of the arrays and objects that are still
open is kept in a list, the innermost first, so that nesting costs no more than memory.

## Main definitions

* `Opened`: an array or object that is not closed yet
* `Progress`: what the parser has read and what may follow
* `parse?`: the document that a text holds
-/

namespace Paradigm.Text.Json

/-- What has been read of an open array or object, the last part first. -/
inductive Opened where
  | array (items : List Json)
  | object (members : List (JsonText × Json)) (name : JsonText)

/-- What may follow the tokens read so far. -/
inductive Progress where
  /-- A value. -/
  | value (outer : List Opened)
  /-- A first item or the end of an array. -/
  | itemOrEnd (outer : List Opened)
  /-- A first name or the end of an object. -/
  | nameOrEnd (outer : List Opened)
  /-- A further name. -/
  | name (members : List (JsonText × Json)) (outer : List Opened)
  /-- The colon after a name. -/
  | colon (members : List (JsonText × Json)) (name : JsonText) (outer : List Opened)
  /-- What comes after a value: the end of the text if nothing is open. -/
  | complete (value : Json) (outer : List Opened)

namespace Progress

/-- Begins a value. -/
def start (outer : List Opened) : Token → Option Progress
  | .scalar v => some (complete v outer)
  | .openBracket => some (itemOrEnd outer)
  | .openBrace => some (nameOrEnd outer)
  | _ => none

/-- Takes one more token. -/
def feed : Progress → Token → Option Progress
  | value outer, t => start outer t
  | itemOrEnd outer, .closeBracket => some (complete (.array []) outer)
  | itemOrEnd outer, t => start (.array [] :: outer) t
  | nameOrEnd outer, .closeBrace => some (complete (.object []) outer)
  | nameOrEnd outer, .scalar (.string s) => some (colon [] s outer)
  | name members outer, .scalar (.string s) => some (colon members s outer)
  | colon members s outer, .colon => some (value (.object members s :: outer))
  | complete v (.array items :: outer), .comma => some (value (.array (v :: items) :: outer))
  | complete v (.array items :: outer), .closeBracket =>
    some (complete (.array (v :: items).reverse) outer)
  | complete v (.object members s :: outer), .comma => some (name ((s, v) :: members) outer)
  | complete v (.object members s :: outer), .closeBrace =>
    some (complete (.object ((s, v) :: members).reverse) outer)
  | _, _ => none

/-- The document, once everything is closed. -/
def finish? : Progress → Option Json
  | complete v [] => some v
  | _ => none

end Progress

/-- The document that a text holds, with nothing but blanks around it. -/
def parse? (text : String) : Option Json := do
  let ts ← tokens? text.toList
  let p ← ts.foldlM Progress.feed (.value [])
  p.finish?

end Paradigm.Text.Json
