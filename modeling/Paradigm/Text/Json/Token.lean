import Paradigm.Text.Json
import Paradigm.Text.Units

/-!
# Tokens of the data notation

A document is cut into tokens in two steps.  The first finds the punctuation, the raw contents of
strings and the runs of other characters; the second reads the runs as numbers and literals, and
resolves the escapes in strings.

## Main definitions

* `Token`: punctuation and the documents without parts
* `isNumber`: the grammar of numbers
* `unescape`: the content of a string
* `tokens?`: the tokens of a document
-/

namespace Paradigm.Text.Json

/-- A part of a document as the parser takes it. -/
inductive Token where
  | openBrace
  | closeBrace
  | openBracket
  | closeBracket
  | colon
  | comma
  | scalar (value : Json)

/-! ## Numbers and literals -/

/-- One or more digits, followed by what satisfies `rest`. -/
def digitsThen (rest : List Char → Bool) (cs : List Char) : Bool :=
  (cs.take 1).any Char.isDigit && rest (cs.dropWhile Char.isDigit)

/-- An optional exponent. -/
def isExponent : List Char → Bool
  | [] => true
  | e :: cs =>
    (e == 'e' || e == 'E') &&
      digitsThen List.isEmpty (match cs with
        | '+' :: ds => ds
        | '-' :: ds => ds
        | ds => ds)

/-- An optional fraction and an optional exponent. -/
def isFraction : List Char → Bool
  | '.' :: cs => digitsThen isExponent cs
  | cs => isExponent cs

/-- A number without its sign: no digit follows a leading zero. -/
def isMagnitude : List Char → Bool
  | '0' :: cs => isFraction cs
  | cs => digitsThen isFraction cs

/-- The grammar of numbers. -/
def isNumber : List Char → Bool
  | '-' :: cs => isMagnitude cs
  | cs => isMagnitude cs

/-- The document that a run of characters stands for. -/
def word? (cs : List Char) : Option Json :=
  if cs = "true".toList then some (bool true)
  else if cs = "false".toList then some (bool false)
  else if cs = "null".toList then some null
  else if isNumber cs then some (number cs)
  else none

/-! ## Strings -/

/-- A part of a string: a character, or a UTF-16 code unit that an escape gives. -/
inductive Piece where
  | char (c : Char)
  | unit (u : Nat)

/-- The value of a hexadecimal digit. -/
def hexDigit? (c : Char) : Option Nat :=
  if '0' ≤ c ∧ c ≤ '9' then some (c.toNat - 48)
  else if 'a' ≤ c ∧ c ≤ 'f' then some (c.toNat - 87)
  else if 'A' ≤ c ∧ c ≤ 'F' then some (c.toNat - 55)
  else none

/-- The code unit that four hexadecimal digits stand for. -/
def hexUnit? (a b c d : Char) : Option Nat := do
  let a ← hexDigit? a
  let b ← hexDigit? b
  let c ← hexDigit? c
  let d ← hexDigit? d
  return ((a * 16 + b) * 16 + c) * 16 + d

/-- The character that an escape of one letter stands for. -/
def escaped? : Char → Option Char
  | '"' => some '"'
  | '\\' => some '\\'
  | '/' => some '/'
  | 'b' => some '\x08'
  | 'f' => some '\x0c'
  | 'n' => some '\n'
  | 'r' => some '\r'
  | 't' => some '\t'
  | _ => none

/-- The parts of the raw content of a string; a control character is refused. -/
def pieces? : List Char → Option (List Piece)
  | [] => some []
  | '\\' :: 'u' :: a :: b :: c :: d :: rest => do
    let u ← hexUnit? a b c d
    return .unit u :: (← pieces? rest)
  | '\\' :: e :: rest => do
    let c ← escaped? e
    return .char c :: (← pieces? rest)
  | c :: rest =>
    if c.toNat < 0x20 ∨ c = '\\' then none else (pieces? rest).map (.char c :: ·)

/-- The text of parts; there is none if a surrogate stands outside a pair. -/
def join? : List Piece → Option (List Char)
  | [] => some []
  | .char c :: rest => (join? rest).map (c :: ·)
  | .unit u :: .unit v :: rest =>
    if Units.isHigh u then
      if Units.isLow v then (join? rest).map (Units.ofPair u v :: ·) else none
    else if Units.isLow u then none
    else (join? (.unit v :: rest)).map (Char.ofNat u :: ·)
  | .unit u :: rest =>
    if Units.isHigh u || Units.isLow u then none else (join? rest).map (Char.ofNat u :: ·)

/-- The content of a string with the given raw content, if the escapes in it are well formed. -/
def unescape (raw : List Char) : Option JsonText :=
  (pieces? raw).map fun ps => (join? ps).map String.ofList

/-! ## Documents -/

/-- A lexeme before it is read. -/
inductive Lexeme where
  | mark (token : Token)
  | word (cs : List Char)
  | raw (cs : List Char)

/-- The token of a punctuation character. -/
def mark? : Char → Option Token
  | '{' => some .openBrace
  | '}' => some .closeBrace
  | '[' => some .openBracket
  | ']' => some .closeBracket
  | ':' => some .colon
  | ',' => some .comma
  | _ => none

/-- The characters that may stand between tokens. -/
def isBlank (c : Char) : Bool := c == ' ' || c == '\n' || c == '\t' || c == '\r'

/-- The run of characters collected so far, given in reverse order. -/
def flush (run : List Char) : List Lexeme := if run.isEmpty then [] else [.word run.reverse]

/-- The place of the scanner: between strings with a run of characters, or in a string, after a
backslash or not; what it has collected is in reverse order. -/
inductive Place where
  | outside (run : List Char)
  | inside (raw : List Char)
  | afterBackslash (raw : List Char)

/-- The lexemes of a document from a place on; there are none if a string is not closed. -/
def lexemes? : Place → List Char → Option (List Lexeme)
  | .outside run, [] => some (flush run)
  | .outside run, c :: cs =>
    -- a string, a blank and a mark end the run before them
    if c = '"' then (lexemes? (.inside []) cs).map (flush run ++ ·)
    else if isBlank c then (lexemes? (.outside []) cs).map (flush run ++ ·)
    else
      match mark? c with
      | some t => (lexemes? (.outside []) cs).map (flush run ++ .mark t :: ·)
      | none => lexemes? (.outside (c :: run)) cs
  | .inside raw, c :: cs =>
    if c = '"' then (lexemes? (.outside []) cs).map (.raw raw.reverse :: ·)
    else if c = '\\' then lexemes? (.afterBackslash (c :: raw)) cs
    else lexemes? (.inside (c :: raw)) cs
  | .afterBackslash raw, c :: cs => lexemes? (.inside (c :: raw)) cs
  | _, [] => none

/-- The token of a lexeme. -/
def Lexeme.token? : Lexeme → Option Token
  | mark t => some t
  | word cs => (word? cs).map .scalar
  | raw cs => (unescape cs).map fun t => .scalar (string t)

/-- The tokens of a document. -/
def tokens? (document : List Char) : Option (List Token) :=
  lexemes? (.outside []) document >>= List.mapM Lexeme.token?

end Paradigm.Text.Json
