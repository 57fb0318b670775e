import Paradigm.Storage.Writer
import Paradigm.Text.Encoding

/-!
# The encoding of stored keys

A string table names the encoding of its keys by a number.  Keys that do not decode and numbers that
name no encoding are failures of the stored data.

## Main definitions

* `Encoding.decode`: the string of a stored key
* `Encoding.ofNumber`: the encoding with a stored number
-/

namespace Paradigm.Text.Encoding

/-- The string of a stored key. -/
def decode (e : Encoding) (key : List UInt8) : Except StorageError String :=
  match e.decode? key with
  | some s => .ok s
  | none => .error .malformedString

/-- The encoding with a stored number. -/
def ofNumber (number : Int) : Except StorageError Encoding :=
  match ofNumber? number with
  | some e => .ok e
  | none => .error (.invalidEncoding number)

end Paradigm.Text.Encoding
