import Paradigm.Storage.Bits
import Paradigm.Storage.Checked
import Paradigm.Storage.Writer

/-!
# Bit vectors with rank and select

A sequence of bits that answers how many bits of a kind precede a position, and where the `k`-th bit
of a kind stands.  The bits are packed into words, and a directory that is built together with the
vector holds the number of set bits before each word.  A rank is looked up there and completed from
one word; a selection finds its word by halving the directory, and then its place in the word.

All indexes and differences on the way are checked.  The answers without checks are those of the
checked queries, which never fail.

## Main definitions

* `BitWords`, `BitWords.push`: bits in words
* `BitVector`: the words with the directory
* `BitVector.tryGet`, `BitVector.tryRank1`, `BitVector.tryRank0`, `BitVector.trySelect1`,
  `BitVector.trySelect0`: the checked queries
* `BitVector.rank1`, `BitVector.rank0`: the number of set and clear bits before a position
* `BitVector.select1`, `BitVector.select0`: the position of the `k`-th set and clear bit
* `BitVector.read`, `BitVector.write`: the stored form
-/

namespace Paradigm

/-! ## Bits in words -/

/-- The number of words that hold `length` bits. -/
def wordCount (length : Nat) : Nat := (length + 63) / 64

/-- Bits in words, lowest first. -/
structure BitWords where
  words : Array UInt64
  /-- The number of bits. -/
  size : Nat
  size_words : words.size = wordCount size
  /-- A word that the bits do not fill is filled up with clear bits. -/
  clear : ∀ w, words[size / wordBits]? = some w → w.toNat < bitLimit (size % wordBits)

namespace BitWords

/-- The bits as a list. -/
def toList (b : BitWords) : List Bool := (bitsOfWords b.words.toList).take b.size

/-- No bits. -/
def empty : BitWords where
  words := #[]
  size := 0
  size_words := rfl
  clear := by simp

section Words

variable {words : Array UInt64} {size : Nat}

/-- The words of `size` bits with room for one more: a word is begun where the last one is full. -/
def room (words : Array UInt64) (size : Nat) : Array UInt64 :=
  if size % wordBits = 0 then words.push 0 else words

/-- The words with one more bit. -/
def grow (words : Array UInt64) (size : Nat) (bit : Bool) : Array UInt64 :=
  if bit then (room words size).modify ((room words size).size - 1) (· ||| bitMask (size % wordBits))
  else room words size

/-- The words up to `size` bits, with the bits behind them cleared. -/
def trim (words : Array UInt64) (size : Nat) : Array UInt64 :=
  if size % wordBits = 0 then words
  else words.modify (words.size - 1) (· &&& lowMask (size % wordBits))

theorem size_room (h : words.size = wordCount size) :
    (room words size).size = size / wordBits + 1 := by
  unfold wordCount at h
  unfold room wordBits
  split
  · rw [Array.size_push]
    omega
  · omega

theorem size_grow (h : words.size = wordCount size) (bit : Bool) :
    (grow words size bit).size = wordCount (size + 1) := by
  have hroom := size_room h
  unfold wordBits at hroom
  unfold grow wordCount
  split
  · rw [Array.size_modify]
    omega
  · omega

theorem size_trim (words : Array UInt64) (size : Nat) : (trim words size).size = words.size := by
  unfold trim
  split
  · rfl
  · rw [Array.size_modify]

/-- The bit that is added, and all behind it, are clear before it is set. -/
theorem room_clear (hwords : words.size = wordCount size)
    (hclear : ∀ w, words[size / wordBits]? = some w → w.toNat < bitLimit (size % wordBits))
    {w : UInt64} (h : (room words size)[size / wordBits]? = some w) :
    w.toNat < bitLimit (size % wordBits) := by
  unfold room at h
  split at h
  · rename_i hfull
    have hsize : size / wordBits = words.size := by
      unfold wordCount at hwords
      unfold wordBits at hfull ⊢
      omega
    rw [Array.getElem?_push, if_pos hsize] at h
    obtain rfl := Option.some.inj h
    exact Nat.two_pow_pos _
  · exact hclear w h

theorem grow_clear (hwords : words.size = wordCount size)
    (hclear : ∀ w, words[size / wordBits]? = some w → w.toNat < bitLimit (size % wordBits))
    (bit : Bool) {w : UInt64} (h : (grow words size bit)[(size + 1) / wordBits]? = some w) :
    w.toNat < bitLimit ((size + 1) % wordBits) := by
  have hlt : size % wordBits < wordBits := Nat.mod_lt _ (by decide)
  -- there is such a word only if the new bit does not fill the last one
  have hlast : (size + 1) / wordBits = size / wordBits ∧
      (size + 1) % wordBits = size % wordBits + 1 := by
    have hindex := (Array.getElem?_eq_some_iff.1 h).1
    rw [size_grow hwords] at hindex
    unfold wordCount at hindex
    unfold wordBits at hindex ⊢
    omega
  rw [hlast.1] at h
  rw [hlast.2]
  unfold grow at h
  split at h
  · rw [size_room hwords, Nat.add_sub_cancel, Array.getElem?_modify, if_pos rfl,
      Option.map_eq_some_iff] at h
    obtain ⟨w₀, hw₀, rfl⟩ := h
    exact or_bitMask_lt hlt (room_clear hwords hclear hw₀)
  · have hpow : bitLimit (size % wordBits) < bitLimit (size % wordBits + 1) :=
      Nat.pow_lt_pow_right (by decide) (Nat.lt_succ_self _)
    exact Nat.lt_trans (room_clear hwords hclear h) hpow

theorem trim_clear (hwords : words.size = wordCount size) {w : UInt64}
    (h : (trim words size)[size / wordBits]? = some w) : w.toNat < bitLimit (size % wordBits) := by
  have hlt : size % wordBits < wordBits := Nat.mod_lt _ (by decide)
  unfold wordCount at hwords
  unfold trim at h
  split at h
  -- bits that fill their words have no word behind them
  · rename_i hfull
    have hindex := (Array.getElem?_eq_some_iff.1 h).1
    unfold wordBits at hfull hindex
    omega
  · rename_i hpart
    have hlast : words.size - 1 = size / wordBits := by
      unfold wordBits at hpart ⊢
      omega
    rw [hlast, Array.getElem?_modify, if_pos rfl, Option.map_eq_some_iff] at h
    obtain ⟨w₀, -, rfl⟩ := h
    exact and_lowMask_lt hlt

end Words

/-- Adds a bit at the end. -/
def push : BitWords → Bool → BitWords
  | ⟨words, size, size_words, clear⟩, bit =>
    { words := grow words size bit
      size := size + 1
      size_words := size_grow size_words bit
      clear := fun _ => grow_clear size_words clear bit }

/-- The bits of words as they are stored.  Bits behind the last one do not belong to it. -/
def ofStored (size : Nat) (words : Vector UInt64 (wordCount size)) : BitWords where
  words := trim words.toArray size
  size := size
  size_words := by rw [size_trim, words.size_toArray]
  clear := fun _ => trim_clear words.size_toArray

end BitWords

/-! ## The directory -/

/-- The numbers of set bits before each word and at the end, counted on from `rank`. -/
def rankDirectory (rank : Nat) : List UInt64 → List Nat
  | [] => [rank]
  | w :: ws => rank :: rankDirectory (rank + popCount w) ws

/-- A sequence of bits with a directory of ranks. -/
structure BitVector extends BitWords where
  /-- The number of set bits before each word, and of all set bits at the end. -/
  ranks : Array Nat
  ranks_eq : ranks.toList = rankDirectory 0 words.toList

namespace BitVector

/-- The vector of bits in words. -/
def ofWords (b : BitWords) : BitVector :=
  { b with ranks := (rankDirectory 0 b.words.toList).toArray, ranks_eq := by simp }

/-- The vector of a list of bits. -/
def ofList (bits : List Bool) : BitVector := ofWords (bits.foldl BitWords.push .empty)

theorem ext_words {v w : BitVector} (hwords : v.words = w.words) (hsize : v.size = w.size) :
    v = w := by
  obtain ⟨⟨vwords, vsize, _, _⟩, vranks, hv⟩ := v
  obtain ⟨⟨wwords, wsize, _, _⟩, wranks, hw⟩ := w
  obtain rfl : vwords = wwords := hwords
  obtain rfl : vsize = wsize := hsize
  obtain rfl : vranks = wranks := Array.toList_inj.1 (hv.trans hw.symm)
  rfl

instance : DecidableEq BitVector := fun v w =>
  if h : v.words = w.words ∧ v.size = w.size then isTrue (ext_words h.1 h.2)
  else isFalse fun hvw => h (hvw ▸ ⟨rfl, rfl⟩)

/-- The number of set bits. -/
def count (v : BitVector) : Nat := v.ranks.back?.getD 0

/-! ## Bits and ranks -/

/-- The bit at a position; there is none beyond the end. -/
def tryGet (v : BitVector) (position : Nat) : Checked (Option Bool) := do
  if v.size ≤ position then return none
  let w ← Checked.element v.words (position / wordBits)
  return some ((w >>> UInt64.ofNat (position % wordBits)) &&& 1 == 1)

/-- The number of set bits before a position, or of all if it lies beyond the end. -/
def tryRank1 (v : BitVector) (position : Nat) : Checked Nat := do
  let position := min position v.size
  let rank ← Checked.element v.ranks (position / wordBits)
  if position % wordBits = 0 then return rank
  let w ← Checked.element v.words (position / wordBits)
  return rank + popCount (w &&& lowMask (position % wordBits))

/-- The number of clear bits before a position, or of all if it lies beyond the end. -/
def tryRank0 (v : BitVector) (position : Nat) : Checked Nat := do
  let position := min position v.size
  Checked.sub position (← v.tryRank1 position)

/-! ## Selections -/

/-- The position in a word of the `k`-th set bit, counted from zero, which must exist. -/
def selectInWord (w : UInt64) : Nat → Checked Nat
  | 0 => return trailingZeros w
  | k + 1 =>
    -- the lowest set bit is cleared
    if 1 ≤ w then selectInWord (w &&& (w - 1)) k else throw (.difference w.toNat 1)

/-- Halves a run of `count` elements from `first` on, keeping the upper half if `p` holds for its
first element, until one is left.  The result is behind that one if `p` holds for it. -/
def halve (p : Nat → Bool) (xs : Array Nat) (first count : Nat) : Checked Nat := do
  if 1 < count then
    let half := count / 2
    let x ← Checked.element xs (first + half)
    halve p xs (if p x then first + half else first) (count - half)
  else
    let x ← Checked.element xs first
    return if p x then first + 1 else first
  termination_by count

/-- The number of elements for which `p` holds, of a row where they come first. -/
def partitionPoint (p : Nat → Bool) (xs : Array Nat) : Checked Nat :=
  if xs.isEmpty then return 0 else halve p xs 0 xs.size

/-- The position of the `k`-th set bit, counted from zero. -/
def trySelect1 (v : BitVector) (k : Nat) : Checked (Option Nat) := do
  if v.count ≤ k then return none
  -- the last word before which there are `k` set bits at most
  let word ← Checked.sub (← partitionPoint (· ≤ k) v.ranks) 1
  let within ← Checked.sub k (← Checked.element v.ranks word)
  let place ← selectInWord (← Checked.element v.words word) within
  return some (word * wordBits + place)

/-- The number of clear bits before a word. -/
def zerosBefore (v : BitVector) (word : Nat) : Checked Nat := do
  Checked.sub (word * wordBits) (← Checked.element v.ranks word)

/-- Halves the words from `low` on, up to `high`, until the last one before which there are `k`
clear bits at most is left. -/
def halveZeros (v : BitVector) (k low high : Nat) : Checked Nat := do
  if high < low then throw (.difference high low)
  if 1 < high - low then
    let mid := low + (high - low) / 2
    if (← v.zerosBefore mid) ≤ k then halveZeros v k mid high else halveZeros v k low mid
  else return low
  termination_by high - low

/-- The position of the `k`-th clear bit, counted from zero. -/
def trySelect0 (v : BitVector) (k : Nat) : Checked (Option Nat) := do
  if (← Checked.sub v.size v.count) ≤ k then return none
  let word ← v.halveZeros k 0 v.words.size
  let within ← Checked.sub k (← v.zerosBefore word)
  let place ← selectInWord (~~~ (← Checked.element v.words word)) within
  return some (word * wordBits + place)

/-! ## Queries -/

/-- The bit at a position. -/
def get? (v : BitVector) (position : Nat) : Option Bool := (v.tryGet position).getD none

/-- The number of set bits before a position, or of all if it lies beyond the end. -/
def rank1 (v : BitVector) (position : Nat) : Nat := (v.tryRank1 position).getD 0

/-- The number of clear bits before a position, or of all if it lies beyond the end. -/
def rank0 (v : BitVector) (position : Nat) : Nat := (v.tryRank0 position).getD 0

/-- The position of the `k`-th set bit, counted from zero. -/
def select1 (v : BitVector) (k : Nat) : Option Nat := (v.trySelect1 k).getD none

/-- The position of the `k`-th clear bit, counted from zero. -/
def select0 (v : BitVector) (k : Nat) : Option Nat := (v.trySelect0 k).getD none

/-! ## The stored form -/

/-- The number of bits, a reserved number and the words. -/
def write (v : BitVector) (out : Writer) : Except StorageError Writer := do
  let out ← out.putCount v.size
  return (out.put (0 : Int32)).putAll v.words.toList

/-- Reads a vector; bits that are stored past its end do not belong to it. -/
def read : Reader BitVector := do
  let size ← Reader.readCount
  let _ ← Reader.read Int32
  let words ← Reader.readVector UInt64 (wordCount size)
  return ofWords (.ofStored size words)

/-- A one-line description. -/
def describe (v : BitVector) : String :=
  Text.summary "BitVector" [("len", toString v.size), ("ones", toString v.count)]

end BitVector

end Paradigm
