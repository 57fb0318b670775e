import Paradigm.Text.Bocu
import Paradigm.Text.Units

/-!
# Encodings of keys

The keys of a string table are stored in one of three encodings, which is chosen once for a table,
as the one that takes the fewest bytes.

## Main definitions

* `Encoding`: the three encodings, with the number that names each in a file
* `Encoding.encode`, `Encoding.decode?`: the bytes of a string and back
* `Encoding.selectSmallest`: the encoding for a list of keys
-/

namespace Paradigm.Text

/-- An encoding of text as bytes. -/
inductive Encoding where
  | bocu1
  | utf8
  | utf16le
  deriving DecidableEq, Repr

namespace Encoding

/-- The encoding with a stored number. -/
def ofNumber? : Int → Option Encoding
  | 0 => some bocu1
  | 1 => some utf8
  | 2 => some utf16le
  | _ => none

/-- The number that stands for an encoding in a file. -/
def number : Encoding → Int
  | bocu1 => 0
  | utf8 => 1
  | utf16le => 2

/-- The name of an encoding. -/
def name : Encoding → String
  | bocu1 => "BOCU-1"
  | utf8 => "UTF-8"
  | utf16le => "UTF-16LE"

/-- The two bytes of a code unit, low byte first. -/
def unitBytes (unit : Nat) : List UInt8 := [UInt8.ofNat (unit % 256), UInt8.ofNat (unit / 256)]

/-- The code units of pairs of bytes; a byte without a partner is refused. -/
def bytesUnits? : List UInt8 → Option (List Nat)
  | [] => some []
  | [_] => none
  | low :: high :: rest => (bytesUnits? rest).map ((low.toNat + 256 * high.toNat) :: ·)

/-- The bytes of a string. -/
def encode : Encoding → String → List UInt8
  | bocu1, s => Bocu.encode s
  | utf8, s => s.toList.flatMap String.utf8EncodeChar
  | utf16le, s => (units s).flatMap unitBytes

/-- The string that bytes stand for, if they are well formed. -/
def decode? : Encoding → List UInt8 → Option String
  | bocu1, bytes => Bocu.decode? bytes
  | utf8, bytes => String.fromUTF8? bytes.toByteArray
  | utf16le, bytes => (bytesUnits? bytes >>= Units.decode?).map String.ofList

/-- The number of bytes that a string takes. -/
def encodedLength : Encoding → String → Nat
  | bocu1, s => Bocu.encodedLength s
  | utf8, s => s.utf8ByteSize
  | utf16le, s => Units.length s * 2

/-- Every `step`-th element of a list, beginning with the first. -/
def everyNth {α : Type} (step : Nat) (xs : List α) : List α :=
  (xs.zipIdx.filter fun (_, i) => i % step == 0).map Prod.fst

/-- The keys that are measured: all of a small list, and of each further 2^17 keys one less. -/
def sample (keys : List String) : List String := everyNth ((keys.length >>> 17) + 1) keys

/-- The number of bytes that keys take together. -/
def totalLength (e : Encoding) (keys : List String) : Nat :=
  keys.foldl (fun n key => n + e.encodedLength key) 0

/-- The encoding that takes the fewest bytes for the sampled keys.  The first and the last are
chosen only when they beat both of the others; otherwise it is UTF-8, which is the cheapest to
read. -/
def selectSmallest (keys : List String) : Encoding :=
  let measured := sample keys
  let b := bocu1.totalLength measured
  let u := utf8.totalLength measured
  let w := utf16le.totalLength measured
  if b < u ∧ b < w then bocu1 else if w < u ∧ w < b then utf16le else utf8

end Encoding

end Paradigm.Text
