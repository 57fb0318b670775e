/-!
# Binary ordered compression

A byte encoding of text that keeps the order of code points.  Each character is written as its
difference to an anchor near the middle of the block of the character before it.  The differences
are cut into seven bands; a difference is written as its offset in its band, with a lead byte that
names the band and carries the highest digit, and up to three trail bytes with digits to base 243.
Control characters and the space are written as themselves, and the byte `0xFF` restores the first
anchor.

## Main definitions

* `Band`, `bands`: the bands of differences, in ascending order of differences and of lead bytes
* `anchorAfter`: the anchor that a character leaves behind
* `encode`, `decode?`: whole strings
* `encodedLength`: the length of an encoding, computed from the differences
-/

namespace Paradigm.Text.Bocu

/-! ## Digits -/

/-- The number of values of a trail byte. -/
def base : Nat := 243

/-- The control bytes that serve as the lowest trail digits: all but those with a meaning in plain
text. -/
def lowTrails : List UInt8 := [
  0x01, 0x02, 0x03, 0x04, 0x05, 0x06, 0x10, 0x11, 0x12, 0x13,
  0x14, 0x15, 0x16, 0x17, 0x18, 0x19, 0x1C, 0x1D, 0x1E, 0x1F]

/-- The trail byte of a digit. -/
def trailByte (digit : Nat) : UInt8 :=
  match lowTrails[digit]? with
  | some byte => byte
  | none => UInt8.ofNat (digit + 13)

/-- The digit of a trail byte. -/
def trailDigit? (byte : UInt8) : Option Nat :=
  if 0x21 ≤ byte then some (byte.toNat - 13) else lowTrails.idxOf? byte

/-- The `n` lowest digits of a number to base 243, highest first. -/
def digits : Nat → Nat → List Nat
  | 0, _ => []
  | n + 1, v => digits n (v / base) ++ [v % base]

/-- The number that digits stand for, highest first. -/
def ofDigits (ds : List Nat) : Nat := ds.foldl (fun v d => v * base + d) 0

/-! ## Bands of differences -/

/-- A run of differences with a common number of trail bytes. -/
structure Band where
  /-- The first lead byte. -/
  lead : Nat
  /-- The number of lead bytes. -/
  leads : Nat
  /-- The number of trail bytes. -/
  trails : Nat
  /-- The least difference. -/
  start : Int
  deriving DecidableEq, Repr

namespace Band

/-- The number of differences with one lead byte. -/
def weight (b : Band) : Nat := Nat.pow base b.trails

/-- The first difference above the band. -/
def stop (b : Band) : Int := b.start + (b.leads * b.weight : Nat)

/-- The bytes of a difference in the band. -/
def write (b : Band) (diff : Int) : List UInt8 :=
  let v := (diff - b.start).toNat
  -- the digits take the number modulo the weight; the lead byte carries the rest
  UInt8.ofNat (b.lead + v / b.weight) :: (digits b.trails v).map trailByte

/-- The difference with the given lead byte and trail digits. -/
def read (b : Band) (lead : Nat) (ds : List Nat) : Int :=
  b.start + ((lead - b.lead) * b.weight + ofDigits ds : Nat)

end Band

/-- The band of the least differences. -/
def lowest : Band := ⟨0x21, 1, 3, -187660 - 14348907⟩

/-- The band of the greatest differences. -/
def highest : Band := ⟨0xFE, 1, 3, 187660⟩

/-- The bands between the lowest and the highest. -/
def inner : List Band := [
  ⟨0x22, 3, 2, -187660⟩, ⟨0x25, 43, 1, -10513⟩, ⟨0x50, 128, 0, -64⟩, ⟨0xD0, 43, 1, 64⟩,
  ⟨0xFB, 3, 2, 10513⟩]

/-- All bands, in ascending order of differences and of lead bytes. -/
def bands : List Band := lowest :: inner ++ [highest]

/-- The band of a difference. -/
def bandOf (diff : Int) : Band := (bands.find? (diff < ·.stop)).getD highest

/-- The band of a lead byte above the space. -/
def bandOfLead (lead : Nat) : Band := (bands.find? fun b => lead < b.lead + b.leads).getD highest

/-! ## Anchors -/

/-- The anchor at the start of a text, after a control character and after a reset. -/
def firstAnchor : Nat := 0x40

/-- The byte that restores the first anchor. -/
def reset : UInt8 := 0xFF

/-- The anchor near the middle of the block of a code point.  Hiragana and the Hangul syllables
have one anchor each, the Chinese characters have one from which two bytes reach all of them, and
elsewhere a block has 128 code points. -/
def blockAnchor (code : Nat) : Nat :=
  if 0x3040 ≤ code ∧ code ≤ 0x309F then 0x3070
  else if 0x4E00 ≤ code ∧ code ≤ 0x9FA5 then 0x4E00 + 10513
  else if 0xAC00 ≤ code ∧ code ≤ 0xD7A3 then (0xD7A3 + 0xAC00) / 2
  else code / 128 * 128 + 0x40

/-- The anchor that a written character leaves behind.  A space leaves it as it is. -/
def anchorAfter (anchor code : Nat) : Nat :=
  if code = 0x20 then anchor else if code < 0x20 then firstAnchor else blockAnchor code

/-! ## Encoding -/

/-- The bytes of a character under an anchor. -/
def writeChar (anchor code : Nat) : List UInt8 :=
  if code ≤ 0x20 then [UInt8.ofNat code]
  else
    let diff := (code : Int) - anchor
    (bandOf diff).write diff

/-- The bytes of characters under an anchor. -/
def encodeFrom (anchor : Nat) : List Char → List UInt8
  | [] => []
  | c :: cs => writeChar anchor c.toNat ++ encodeFrom (anchorAfter anchor c.toNat) cs

/-- The encoding of a string. -/
def encode (s : String) : List UInt8 := encodeFrom firstAnchor s.toList

/-- The number of bytes of a character under an anchor. -/
def charLength (anchor code : Nat) : Nat :=
  if code ≤ 0x20 then 1 else (bandOf ((code : Int) - anchor)).trails + 1

/-- The number of bytes of characters under an anchor. -/
def lengthFrom (anchor : Nat) : List Char → Nat
  | [] => 0
  | c :: cs => charLength anchor c.toNat + lengthFrom (anchorAfter anchor c.toNat) cs

/-- The length of the encoding of a string. -/
def encodedLength (s : String) : Nat := lengthFrom firstAnchor s.toList

/-! ## Decoding -/

/-- The character with a code point given as a difference may have led to it. -/
def toChar? (code : Int) : Option Char :=
  if h : 0 ≤ code ∧ code.toNat.isValidChar then
    some (Char.ofNatAux code.toNat h.2)
  else none

/-- Reads bytes under an anchor; a missing or impossible trail byte is refused, and so is a
difference that leads to no character. -/
def decodeFrom (anchor : Nat) (bytes : List UInt8) : Option (List Char) :=
  match bytes with
  | [] => some []
  | b :: rest =>
    if b ≤ 0x20 then
      (decodeFrom (anchorAfter anchor b.toNat) rest).map (Char.ofNat b.toNat :: ·)
    else if b = reset then decodeFrom firstAnchor rest
    -- the lead byte tells how many trail bytes belong to it
    else
      let band := bandOfLead b.toNat
      if rest.length < band.trails then none
      else do
        let ds ← (rest.take band.trails).mapM trailDigit?
        let c ← toChar? (anchor + band.read b.toNat ds)
        let cs ← decodeFrom (blockAnchor c.toNat) (rest.drop band.trails)
        return c :: cs
  termination_by bytes.length
  decreasing_by all_goals grind

/-- Reads a whole encoding. -/
def decode? (bytes : List UInt8) : Option String :=
  (decodeFrom firstAnchor bytes).map String.ofList

end Paradigm.Text.Bocu
