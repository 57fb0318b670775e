import Mathlib
import Paradigm.Proofs.Storage.Bits
import Paradigm.Storage.BitVector

/-!
# Bits packed into words

The words that bits are packed into hold the bits first and clear bits behind them, however they
came about: adding a bit sets the first bit behind the others, and words that were read are cut off
behind the last bit.

## Main results

* `bitsOfWords_split`: the bits before, in and behind a word
* `getElem?_rankDirectory`: the directory counts the set bits before each word
* `BitWords.bits_eq`: the bits of the words
* `BitWords.toList_foldl_push`, `BitWords.toList_ofStored`: bits that were added, and bits that were
  stored
-/

namespace Paradigm

/-! ## The bits of words -/

section Words

variable {ws : List UInt64} {w : UInt64} {i n : Nat}

@[simp] theorem bitsOfWords_nil : bitsOfWords [] = [] := rfl

@[simp] theorem bitsOfWords_cons (w : UInt64) (ws : List UInt64) :
    bitsOfWords (w :: ws) = bitsOfWord w ++ bitsOfWords ws := rfl

@[simp] theorem bitsOfWords_append (ws us : List UInt64) :
    bitsOfWords (ws ++ us) = bitsOfWords ws ++ bitsOfWords us := List.flatMap_append

@[simp] theorem length_bitsOfWords (ws : List UInt64) : (bitsOfWords ws).length = ws.length * 64 := by
  induction ws with
  | nil => rfl
  | cons w ws ih =>
    rw [bitsOfWords_cons, List.length_append, length_bitsOfWord, ih, List.length_cons]
    omega

/-- The bits before, in and behind a word. -/
theorem bitsOfWords_split (h : ws[i]? = some w) : bitsOfWords ws =
    bitsOfWords (ws.take i) ++ (bitsOfWord w ++ bitsOfWords (ws.drop (i + 1))) := by
  obtain ⟨hi, rfl⟩ := List.getElem?_eq_some_iff.1 h
  conv_lhs => rw [← List.take_append_drop i ws, List.drop_eq_getElem_cons hi]
  rw [bitsOfWords_append, bitsOfWords_cons]

theorem length_bitsOfWords_take (h : i ≤ ws.length) : (bitsOfWords (ws.take i)).length = i * 64 := by
  rw [length_bitsOfWords, List.length_take, Nat.min_eq_left h]

theorem take_bitsOfWords (h : i ≤ ws.length) :
    (bitsOfWords ws).take (i * 64) = bitsOfWords (ws.take i) := by
  conv_lhs => rw [← List.take_append_drop i ws, bitsOfWords_append]
  exact List.take_left' (length_bitsOfWords_take h)

/-- The bits up to a place in a word are those before the word and the first ones of the word. -/
theorem take_bitsOfWords_add (h : ws[i]? = some w) (hn : n ≤ 64) :
    (bitsOfWords ws).take (i * 64 + n) = bitsOfWords (ws.take i) ++ (bitsOfWord w).take n := by
  have hlength := length_bitsOfWords_take (List.getElem?_eq_some_iff.1 h).1.le
  rw [bitsOfWords_split h, ← hlength, List.take_length_add_append,
    List.take_append_of_le_length (by simpa using hn)]

theorem getElem?_bitsOfWords (h : ws[i]? = some w) (hn : n < 64) :
    (bitsOfWords ws)[i * 64 + n]? = (bitsOfWord w)[n]? := by
  have hlength := length_bitsOfWords_take (List.getElem?_eq_some_iff.1 h).1.le
  rw [bitsOfWords_split h, List.getElem?_append_right (by omega), hlength, Nat.add_sub_cancel_left,
    List.getElem?_append_left (by simpa using hn)]

/-- The bits are those of the words that they are packed into. -/
theorem bitsOfWords_injective : Function.Injective bitsOfWords := by
  intro ws us h
  apply List.ext_getElem?
  intro i
  have hlength : ws.length = us.length := by
    have := congrArg List.length h
    simp only [length_bitsOfWords] at this
    omega
  by_cases hi : i < ws.length
  · have hws := List.getElem?_eq_getElem hi
    have hus := List.getElem?_eq_getElem (hlength ▸ hi)
    rw [hws, hus, Option.some_inj]
    apply UInt64.toNat_inj.1
    apply Nat.eq_of_testBit_eq
    intro n
    by_cases hn : n < 64
    · apply Option.some.inj
      rw [← getElem?_bitsOfWord hn, ← getElem?_bitsOfWord hn, ← getElem?_bitsOfWords hws hn, h,
        getElem?_bitsOfWords hus hn]
    · rw [Nat.testBit_lt_two_pow, Nat.testBit_lt_two_pow]
      · exact (UInt64.toNat_lt _).trans_le (Nat.pow_le_pow_right (by decide) (Nat.le_of_not_lt hn))
      · exact (UInt64.toNat_lt _).trans_le (Nat.pow_le_pow_right (by decide) (Nat.le_of_not_lt hn))
  · rw [List.getElem?_eq_none (by omega), List.getElem?_eq_none (by omega)]

/-- A word that is changed leaves the bits before and behind it. -/
theorem bitsOfWords_modify (h : ws[i]? = some w) (f : UInt64 → UInt64) :
    bitsOfWords (ws.modify i f) =
      bitsOfWords (ws.take i) ++ (bitsOfWord (f w) ++ bitsOfWords (ws.drop (i + 1))) := by
  obtain ⟨hi, rfl⟩ := List.getElem?_eq_some_iff.1 h
  rw [List.modify_eq_take_cons_drop hi, bitsOfWords_append, bitsOfWords_cons]

/-- Setting a bit of a word sets the bit in its place. -/
theorem bitsOfWords_modify_set (h : ws[i]? = some w) (hn : n < 64) :
    bitsOfWords (ws.modify i (· ||| bitMask n)) = (bitsOfWords ws).set (i * 64 + n) true := by
  have hlength := length_bitsOfWords_take (List.getElem?_eq_some_iff.1 h).1.le
  rw [bitsOfWords_modify h, bitsOfWords_split h, bitsOfWord_set hn,
    List.set_append_right _ _ (by omega), hlength, Nat.add_sub_cancel_left,
    List.set_append_left _ _ (by simpa using hn)]

/-- Cutting off a word leaves the bits up to the place where it is cut. -/
theorem take_bitsOfWords_modify_low (h : ws[i]? = some w) (hn : n < 64) :
    (bitsOfWords (ws.modify i (· &&& lowMask n))).take (i * 64 + n) =
      (bitsOfWords ws).take (i * 64 + n) := by
  have hlength := length_bitsOfWords_take (List.getElem?_eq_some_iff.1 h).1.le
  have hlow : ((bitsOfWord w).take n).length = n := by
    rw [List.length_take, length_bitsOfWord, Nat.min_eq_left hn.le]
  rw [take_bitsOfWords_add h hn.le, bitsOfWords_modify h, bitsOfWord_low hn, ← hlength,
    List.take_length_add_append, List.append_assoc, List.take_left' hlow]

/-! ## The directory -/

@[simp] theorem length_rankDirectory (rank : Nat) (ws : List UInt64) :
    (rankDirectory rank ws).length = ws.length + 1 := by
  induction ws generalizing rank with
  | nil => rfl
  | cons w ws ih => rw [rankDirectory, List.length_cons, ih, List.length_cons]

/-- The directory holds the number of set bits before each word. -/
theorem getElem?_rankDirectory (rank : Nat) (h : i ≤ ws.length) : (rankDirectory rank ws)[i]? =
    some (rank + (bitsOfWords (ws.take i)).count true) := by
  -- the rank so far runs along with the words
  induction ws generalizing rank i with
  | nil =>
    obtain rfl : i = 0 := Nat.le_zero.1 h
    rfl
  | cons w ws ih =>
    cases i with
    | zero => rfl
    | succ i =>
      rw [rankDirectory, List.getElem?_cons_succ, ih _ (Nat.le_of_succ_le_succ h), popCount_eq,
        List.take_succ_cons, bitsOfWords_cons, List.count_append, Nat.add_assoc]

end Words

/-! ## Bits in words -/

namespace BitWords

theorem size_le (b : BitWords) : b.size ≤ (bitsOfWords b.words.toList).length := by
  rw [length_bitsOfWords, Array.length_toList, b.size_words, wordCount]
  omega

@[simp] theorem length_toList (b : BitWords) : b.toList.length = b.size := by
  rw [toList, List.length_take, Nat.min_eq_left b.size_le]

/-- The words hold the bits first and clear bits behind them. -/
theorem bits_eq (b : BitWords) : bitsOfWords b.words.toList =
    b.toList ++ List.replicate (wordCount b.size * 64 - b.size) false := by
  have hlength : (bitsOfWords b.words.toList).length = wordCount b.size * 64 := by
    rw [length_bitsOfWords, Array.length_toList, b.size_words]
  conv_lhs => rw [← List.take_append_drop b.size (bitsOfWords b.words.toList)]
  rw [toList, List.append_cancel_left_eq, List.eq_replicate_iff]
  refine ⟨by rw [List.length_drop, hlength], fun bit hbit => ?_⟩
  obtain ⟨j, hj⟩ := List.mem_iff_getElem?.1 hbit
  rw [List.getElem?_drop] at hj
  -- the bit is one of the word that the bits do not fill, and above their number
  have hplace : b.size + j < wordCount b.size * 64 := by
    rw [← hlength]
    exact (List.getElem?_eq_some_iff.1 hj).1
  have hword : b.size / 64 < b.words.size := by
    rw [b.size_words]
    unfold wordCount at hplace ⊢
    omega
  have hget := Array.getElem?_eq_getElem hword
  have hsame : b.size + j = b.size / 64 * 64 + (b.size % 64 + j) := by omega
  have hbelow : b.size % 64 + j < 64 := by
    unfold wordCount at hplace
    omega
  rw [hsame, getElem?_bitsOfWords (by rwa [Array.getElem?_toList]) hbelow,
    getElem?_bitsOfWord hbelow, Option.some_inj] at hj
  rw [← hj]
  apply Nat.testBit_lt_two_pow
  exact (b.clear _ hget).trans_le (Nat.pow_le_pow_right (by decide) (Nat.le_add_right _ _))

/-- The bits determine the words. -/
theorem words_eq {b c : BitWords} (h : b.toList = c.toList) : b.words = c.words := by
  have hsize : b.size = c.size := by
    rw [← length_toList, h, length_toList]
  apply Array.toList_inj.1
  apply bitsOfWords_injective
  rw [bits_eq, bits_eq, h, hsize]

/-! ## Adding bits -/

@[simp] theorem toList_empty : empty.toList = [] := rfl

/-- There is room for a bit, and it is clear. -/
theorem bits_room (b : BitWords) : ∃ n, bitsOfWords (room b.words b.size).toList =
    b.toList ++ false :: List.replicate n false := by
  unfold room wordBits
  split
  · rename_i hfull
    have hnone : wordCount b.size * 64 - b.size = 0 := by
      unfold wordCount
      omega
    refine ⟨63, ?_⟩
    rw [Array.toList_push, bitsOfWords_append, bits_eq, hnone, bitsOfWords_cons, bitsOfWord_zero]
    simp [List.replicate_succ]
  · rename_i hpart
    obtain ⟨n, hn⟩ : ∃ n, wordCount b.size * 64 - b.size = n + 1 := by
      refine ⟨wordCount b.size * 64 - b.size - 1, ?_⟩
      unfold wordCount
      omega
    exact ⟨n, by rw [bits_eq, hn, List.replicate_succ]⟩

/-- A bit is added behind the others. -/
theorem toList_push (b : BitWords) (bit : Bool) : (b.push bit).toList = b.toList ++ [bit] := by
  obtain ⟨n, hn⟩ := b.bits_room
  have hroom : (room b.words b.size).size = b.size / 64 + 1 := size_room b.size_words
  have hindex : b.size / 64 < (room b.words b.size).size := by
    rw [hroom]
    exact Nat.lt_succ_self _
  have hbits : bitsOfWords (b.push bit).words.toList =
      b.toList ++ bit :: List.replicate n false := by
    cases bit with
    | false => exact hn
    | true =>
      have hword := Array.getElem?_eq_getElem hindex
      rw [← Array.getElem?_toList] at hword
      show bitsOfWords (grow b.words b.size true).toList = _
      rw [grow, if_pos rfl, Array.toList_modify, hroom, Nat.add_sub_cancel, wordBits,
        bitsOfWords_modify_set hword (Nat.mod_lt _ (by decide)), hn, Nat.div_add_mod',
        List.set_append_right _ _ b.length_toList.le, length_toList, Nat.sub_self,
        List.set_cons_zero]
  have hlength : (b.toList ++ [bit]).length = b.size + 1 := by
    rw [List.length_append, length_toList, List.length_singleton]
  rw [toList, hbits, List.append_cons]
  exact List.take_left' hlength

/-- Bits that are added one after the other. -/
theorem toList_foldl_push (bits : List Bool) (b : BitWords) :
    (bits.foldl push b).toList = b.toList ++ bits := by
  induction bits generalizing b with
  | nil => rw [List.foldl_nil, List.append_nil]
  | cons bit bits ih => rw [List.foldl_cons, ih, toList_push, List.append_assoc, List.singleton_append]

/-! ## Stored bits -/

/-- Of the bits of words that are read, those up to the end are kept. -/
theorem toList_ofStored (size : Nat) (words : Vector UInt64 (wordCount size)) :
    (ofStored size words).toList = (bitsOfWords words.toList).take size := by
  show (bitsOfWords (trim words.toArray size).toList).take size = _
  rw [trim, wordBits]
  split
  · rfl
  · rename_i hpart
    have hsize : words.toArray.size = (size + 63) / 64 := words.size_toArray
    have hlast : words.toArray.size - 1 = size / 64 := by omega
    have hword : size / 64 < words.toList.length := by
      rw [Vector.length_toList, wordCount]
      omega
    have hlow := take_bitsOfWords_modify_low (List.getElem?_eq_getElem hword)
      (Nat.mod_lt size (Nat.succ_pos 63))
    rw [Nat.div_add_mod'] at hlow
    rw [Array.toList_modify, hlast]
    exact hlow

/-- Words in which bits are packed are kept as they are. -/
theorem words_ofStored (b : BitWords) : (ofStored b.size ⟨b.words, b.size_words⟩).words = b.words := by
  apply words_eq
  rw [toList_ofStored]
  rfl

end BitWords

end Paradigm
