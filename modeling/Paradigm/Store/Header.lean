import Paradigm.Storage.Writer

/-!
# Versions of stored tables

A table begins with the version of its layout and a mark that tells the order of the bytes of an
integer: the number one, which reads as 256 in the other order.

## Main definitions

* `Writer.putVersion`: writes a version and the mark
* `Reader.readVersion`: reads them, and refuses all others
-/

namespace Paradigm

/-- The mark of the order of bytes. -/
def byteOrderMark : Int16 := 1

/-- Writes a version and the mark of the order of bytes. -/
def Writer.putVersion (out : Writer) (version : Int64) : Writer :=
  (out.put version).put byteOrderMark

/-- Reads a version and the mark of the order of bytes, which must be the expected ones. -/
def Reader.readVersion (expected : Int64) : Reader Unit := do
  let version ← Reader.read Int64
  if version ≠ expected then throw (.incompatibleVersion version.toInt expected.toInt)
  let mark ← Reader.read Int16
  if mark ≠ byteOrderMark then throw (.endiannessMismatch mark.toInt)

end Paradigm
