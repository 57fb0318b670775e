import Mathlib
import Paradigm.Proofs.Outcome
import Paradigm.Proofs.Storage.BitWords

/-!
# The checked queries of bit vectors

No index and no difference in a query is out of range, and the answers are those of the list of
bits.  The directory counts the bits before each word.  Halving it ends at the last word before
which no more bits of a kind stand than are to be passed over, so that this word has the bit that is
looked for.

## Main results

* `selectInWord_eq_ok`, `partitionPoint_eq_ok`: the searches in a word and in a row
* `BitVector.tryGet_eq`, `BitVector.tryRank1_eq`, `BitVector.tryRank0_eq`: bits and counts of bits
* `BitVector.trySelect1_eq`, `BitVector.trySelect0_eq`: positions of bits
-/

namespace Paradigm

/-! ## Counts and positions of bits -/

theorem count_take_le (bits : List Bool) (kind : Bool) {i j : Nat} (h : i ≤ j) :
    (bits.take i).count kind ≤ (bits.take j).count kind :=
  (List.take_sublist_take_left h).count_le kind

theorem count_true_add_count_false (bits : List Bool) :
    bits.count true + bits.count false = bits.length := by
  induction bits with
  | nil => rfl
  | cons b bits ih => cases b <;> simp <;> omega

theorem idxsOf_map_not (bits : List Bool) : (bits.map not).idxsOf true = bits.idxsOf false := by
  rw [List.idxsOf_map, List.idxsOf]
  congr 1
  funext b
  cases b <;> rfl

section Words

variable {ws : List UInt64} {w : UInt64} {kind : Bool} {i k q : Nat}

theorem count_take_succ_word (h : ws[i]? = some w) (kind : Bool) :
    ((bitsOfWords ws).take ((i + 1) * 64)).count kind =
      ((bitsOfWords ws).take (i * 64)).count kind + (bitsOfWord w).count kind := by
  have hi := (List.getElem?_eq_some_iff.1 h).1
  rw [Nat.succ_mul, take_bitsOfWords_add h le_rfl, take_bitsOfWords hi.le, List.count_append,
    List.take_of_length_le (length_bitsOfWord w).le]

/-- The bit in a word that is as many bits of its kind further than all before the word. -/
theorem getElem?_idxsOf_bitsOfWords (h : ws[i]? = some w)
    (hk : ((bitsOfWords ws).take (i * 64)).count kind ≤ k)
    (hq : ((bitsOfWord w).idxsOf kind)[k - ((bitsOfWords ws).take (i * 64)).count kind]? =
      some q) : ((bitsOfWords ws).idxsOf kind)[k]? = some (i * 64 + q) := by
  have hi := (List.getElem?_eq_some_iff.1 h).1
  have hcount : ((bitsOfWords (ws.take i)).idxsOf kind).length =
      ((bitsOfWords ws).take (i * 64)).count kind := by
    rw [List.length_idxsOf, take_bitsOfWords hi.le]
  have hlt := (List.getElem?_eq_some_iff.1 hq).1
  rw [bitsOfWords_split h, List.idxsOf_append, List.idxsOf_append,
    List.getElem?_append_right (by omega), hcount, Nat.zero_add, List.idxsOf_start,
    List.getElem?_append_left (by rwa [List.length_map]), List.getElem?_map, hq,
    length_bitsOfWords_take hi.le, Option.map_some, Nat.add_comm]

end Words

/-! ## Selecting in a word -/

namespace BitVector

/-- The lowest set bits of a word are cleared until the one that is looked for is the lowest. -/
theorem selectInWord_eq_ok {w : UInt64} {k q : Nat}
    (h : ((bitsOfWord w).idxsOf true)[k]? = some q) : selectInWord w k = .ok q := by
  induction k generalizing w with
  | zero =>
    obtain ⟨hlt, rfl⟩ := List.getElem?_eq_some_iff.1 h
    rw [selectInWord, trailingZeros, List.getElem_zero_idxsOf_eq_idxOf]
    rfl
  | succ k ih =>
    -- a word without set bits has none to be looked for
    have hpos : 1 ≤ w := by
      rw [UInt64.le_iff_toNat_le, UInt64.toNat_one, Nat.one_le_iff_ne_zero]
      intro hzero
      obtain rfl : w = 0 := UInt64.toNat_inj.1 hzero
      have hlt := (List.getElem?_eq_some_iff.1 h).1
      rw [List.length_idxsOf, bitsOfWord_zero] at hlt
      simp at hlt
    rw [selectInWord, if_pos hpos]
    apply ih
    rw [idxsOf_clearLowest hpos, List.getElem?_tail]
    exact h

/-! ## Halving -/

section Halving

variable {p : Nat → Bool} {xs : Array Nat} {m : Nat}

/-- The elements for which `p` holds end within a run, and halving it finds where. -/
theorem halve_eq_ok (hp : ∀ i x, xs[i]? = some x → (p x ↔ i < m)) {first count : Nat}
    (hpos : 0 < count) (hrun : first + count ≤ xs.size) (hlow : first ≤ m)
    (hhigh : m ≤ first + count) : halve p xs first count = .ok m := by
  induction count using Nat.strong_induction_on generalizing first with
  | h count ih =>
    rw [halve]
    split
    · rename_i hmore
      have hget := Array.getElem?_eq_getElem (show first + count / 2 < xs.size by omega)
      dsimp only
      rw [Checked.element_eq_ok.2 hget, Except.ok_bind]
      have hmid := hp _ _ hget
      split
      · rename_i hx
        have hmid := hmid.1 hx
        exact ih _ (by omega) (by omega) (by omega) (by omega) (by omega)
      · rename_i hx
        have hmid := mt hmid.2 hx
        exact ih _ (by omega) (by omega) (by omega) (by omega) (by omega)
    · rename_i hone
      have hget := Array.getElem?_eq_getElem (show first < xs.size by omega)
      rw [Checked.element_eq_ok.2 hget, Except.ok_bind]
      have hmid := hp _ _ hget
      split
      · rename_i hx
        have hmid := hmid.1 hx
        exact congrArg Except.ok (by omega)
      · rename_i hx
        have hmid := mt hmid.2 hx
        exact congrArg Except.ok (by omega)

/-- The number of elements for which `p` holds, if these come first. -/
theorem partitionPoint_eq_ok (hp : ∀ i x, xs[i]? = some x → (p x ↔ i < m)) (hm : m ≤ xs.size) :
    partitionPoint p xs = .ok m := by
  unfold partitionPoint
  split
  · rename_i hempty
    rw [Array.isEmpty_iff_size_eq_zero] at hempty
    exact congrArg Except.ok (by omega)
  · rename_i hempty
    rw [Array.isEmpty_iff_size_eq_zero] at hempty
    exact halve_eq_ok hp (by omega) (by omega) (by omega) (by omega)

end Halving

/-! ## Bits and ranks -/

variable (v : BitVector)

theorem size_eq : v.size = v.toList.length := v.length_toList.symm

theorem lt_wordCount {p : Nat} (h : p < v.size) : p / 64 < v.words.size := by
  rw [v.size_words, wordCount]
  omega

/-- Only clear bits stand behind the end. -/
theorem count_true_take (n : Nat) :
    ((bitsOfWords v.words.toList).take n).count true = (v.toList.take n).count true := by
  rw [v.bits_eq, List.take_append, List.count_append, List.take_replicate,
    List.count_replicate, if_neg (by decide), Nat.add_zero]

/-- The words have room for all bits. -/
theorem take_words : v.toList.take (v.words.size * 64) = v.toList := by
  apply List.take_of_length_le
  rw [← size_eq, v.size_words, wordCount]
  omega

theorem size_ranks : v.ranks.size = v.words.size + 1 := by
  rw [← Array.length_toList, v.ranks_eq, length_rankDirectory, Array.length_toList]

/-- The directory holds the number of set bits before each word. -/
theorem getElem?_ranks {i : Nat} (h : i ≤ v.words.size) :
    v.ranks[i]? = some ((v.toList.take (i * 64)).count true) := by
  have hi : i ≤ v.words.toList.length := by rwa [Array.length_toList]
  rw [← Array.getElem?_toList, v.ranks_eq, getElem?_rankDirectory 0 hi, ← take_bitsOfWords hi,
    count_true_take, Nat.zero_add]

theorem count_eq : v.count = v.toList.count true := by
  rw [count, Array.back?_eq_getElem?, v.size_ranks, Nat.add_sub_cancel, v.getElem?_ranks le_rfl,
    take_words]
  rfl

/-- A bit is found in its word. -/
theorem tryGet_eq (p : Nat) : v.tryGet p = .ok v.toList[p]? := by
  rw [tryGet]
  split
  · rename_i hend
    rw [size_eq] at hend
    rw [List.getElem?_eq_none hend]
    rfl
  · rename_i hp
    have hp := Nat.lt_of_not_le hp
    have hword := Array.getElem?_eq_getElem (v.lt_wordCount hp)
    have hplace : p % 64 < 64 := Nat.mod_lt _ (by decide)
    have hbit := getElem?_bitsOfWords (n := p % 64) (by rwa [Array.getElem?_toList]) hplace
    rw [Nat.div_add_mod', getElem?_bitsOfWord hplace, ← shiftRight_and_one hplace] at hbit
    rw [wordBits, Checked.element_eq_ok.2 hword, Except.ok_bind, BitWords.toList,
      List.getElem?_take_of_lt hp, hbit]
    rfl

/-- The bits before a position are those before its word and the first ones of the word. -/
theorem tryRank1_eq (p : Nat) : v.tryRank1 p = .ok ((v.toList.take p).count true) := by
  have hmin : v.toList.take p = v.toList.take (min p v.size) := by
    rw [size_eq, ← List.take_take, List.take_length]
  have hle : min p v.size ≤ v.size := Nat.min_le_right _ _
  rw [tryRank1, hmin]
  generalize min p v.size = n at hle
  have hword : n / 64 ≤ v.words.size := by
    rw [v.size_words, wordCount]
    omega
  rw [wordBits, Checked.element_eq_ok.2 (v.getElem?_ranks hword), Except.ok_bind]
  by_cases hfull : n % 64 = 0
  · have hn : n / 64 * 64 = n := by omega
    rw [if_pos hfull, hn]
    rfl
  · rw [if_neg hfull]
    have hlt : n / 64 < v.words.size := by
      rw [v.size_words, wordCount]
      omega
    have hget := Array.getElem?_eq_getElem hlt
    have hplace : n % 64 < 64 := Nat.mod_lt _ (by decide)
    have htake := take_bitsOfWords_add (n := n % 64) (by rwa [Array.getElem?_toList]) hplace.le
    rw [Nat.div_add_mod', ← take_bitsOfWords (by rw [Array.length_toList]; exact hlt.le)] at htake
    rw [Checked.element_eq_ok.2 hget, Except.ok_bind, popCount_eq, bitsOfWord_low hplace,
      ← count_true_take, ← count_true_take, htake, List.count_append, List.count_append,
      List.count_replicate]
    rfl

/-- The bits that are not set are clear. -/
theorem tryRank0_eq (p : Nat) : v.tryRank0 p = .ok ((v.toList.take p).count false) := by
  have hmin : v.toList.take (min p v.size) = v.toList.take p := by
    rw [size_eq, ← List.take_take, List.take_length]
  have hsum := count_true_add_count_false (v.toList.take p)
  rw [List.length_take, ← size_eq] at hsum
  rw [tryRank0, tryRank1_eq, Except.ok_bind, hmin, Checked.sub_eq_ok (by omega)]
  exact congrArg Except.ok (by omega)

/-! ## Selections -/

variable {v} {i k : Nat}

/-- If the bit that is looked for is in a word, then selecting in the word finds it. -/
theorem exists_selectInWord {w : UInt64} (h : v.words[i]? = some w) (kind : Bool) (k : Nat)
    (hlow : ((bitsOfWords v.words.toList).take (i * 64)).count kind ≤ k)
    (hhigh : k < ((bitsOfWords v.words.toList).take ((i + 1) * 64)).count kind)
    (hk : k < v.toList.count kind) : ∃ q, selectInWord (if kind then w else ~~~ w)
      (k - ((bitsOfWords v.words.toList).take (i * 64)).count kind) = .ok q ∧
      (v.toList.idxsOf kind)[k]? = some (i * 64 + q) := by
  have hword : v.words.toList[i]? = some w := by rwa [Array.getElem?_toList]
  rw [count_take_succ_word hword] at hhigh
  obtain ⟨q, hq⟩ : ∃ q, ((bitsOfWord w).idxsOf kind)[k -
      ((bitsOfWords v.words.toList).take (i * 64)).count kind]? = some q := by
    refine ⟨_, List.getElem?_eq_getElem ?_⟩
    rw [List.length_idxsOf]
    omega
  refine ⟨q, selectInWord_eq_ok ?_, ?_⟩
  · cases kind with
    | true => exact hq
    | false =>
      show ((bitsOfWord (~~~ w)).idxsOf true)[_]? = _
      rw [bitsOfWord_not, idxsOf_map_not]
      exact hq
  · have hall := getElem?_idxsOf_bitsOfWords hword hlow hq
    rwa [v.bits_eq, List.idxsOf_append, List.getElem?_append_left
      (by rwa [List.length_idxsOf])] at hall

/-- The ranks that are not greater than one of a set bit come first, and end before the last. -/
theorem exists_partition (h : k < v.count) : ∃ m, 0 < m ∧ m ≤ v.words.size ∧
    ∀ i x, v.ranks[i]? = some x → (decide (x ≤ k) ↔ i < m) := by
  have hend : k < (v.toList.take (v.words.size * 64)).count true := by
    rwa [take_words, ← count_eq]
  have hex : ∃ i, k < (v.toList.take (i * 64)).count true := ⟨_, hend⟩
  refine ⟨Nat.find hex, ?_, Nat.find_min' hex hend, fun i x hx => ?_⟩
  · rw [Nat.find_pos]
    simp
  · have hi := (Array.getElem?_eq_some_iff.1 hx).1
    rw [size_ranks] at hi
    rw [v.getElem?_ranks (Nat.le_of_lt_succ hi)] at hx
    obtain rfl := Option.some.inj hx
    rw [decide_eq_true_iff, ← Nat.not_le (a := Nat.find hex), ← Nat.not_lt, not_iff_not]
    constructor
    · exact Nat.find_min' hex
    · intro hle
      exact (Nat.find_spec hex).trans_le (count_take_le _ _ (Nat.mul_le_mul_right _ hle))

variable (v)

theorem trySelect1_eq (k : Nat) : v.trySelect1 k = .ok (v.toList.idxsOf true)[k]? := by
  rw [trySelect1]
  split
  · rename_i hk
    rw [count_eq, ← List.length_idxsOf] at hk
    rw [List.getElem?_eq_none hk]
    rfl
  · rename_i hk
    have hk := Nat.lt_of_not_le hk
    obtain ⟨m, hpos, hm, hsplit⟩ := exists_partition hk
    have hword : m - 1 < v.words.size := by omega
    have hrank := v.getElem?_ranks hword.le
    have hlow := (hsplit _ _ hrank).2 (by omega)
    have hhigh := (hsplit _ _ (v.getElem?_ranks hm)).not.2 (Nat.lt_irrefl m)
    rw [decide_eq_true_iff] at hlow hhigh
    obtain ⟨q, hq, hplace⟩ := exists_selectInWord (Array.getElem?_eq_getElem hword) true k
      (by rwa [count_true_take])
      (by rw [count_true_take, Nat.sub_add_cancel hpos]; exact Nat.lt_of_not_le hhigh)
      (by rwa [← count_eq])
    rw [count_true_take] at hq
    rw [partitionPoint_eq_ok hsplit (hm.trans (by rw [size_ranks]; omega)), Except.ok_bind,
      Checked.sub_eq_ok hpos, Except.ok_bind, Checked.element_eq_ok.2 hrank, Except.ok_bind,
      Checked.sub_eq_ok hlow, Except.ok_bind,
      Checked.element_eq_ok.2 (Array.getElem?_eq_getElem hword), Except.ok_bind]
    rw [if_pos rfl] at hq
    rw [hq, Except.ok_bind, hplace]
    rfl

theorem zerosBefore_eq (h : i < v.words.size) :
    v.zerosBefore i = .ok (((bitsOfWords v.words.toList).take (i * 64)).count false) := by
  have hsum := count_true_add_count_false ((bitsOfWords v.words.toList).take (i * 64))
  rw [List.length_take, length_bitsOfWords, Array.length_toList, Nat.min_eq_left (by omega),
    count_true_take] at hsum
  rw [zerosBefore, Checked.element_eq_ok.2 (v.getElem?_ranks h.le), Except.ok_bind, wordBits,
    Checked.sub_eq_ok (by omega)]
  exact congrArg Except.ok (by omega)

/-- Halving ends at the last word before which there are not too many clear bits. -/
theorem exists_halveZeros {low high : Nat} (hlt : low < high) (hle : high ≤ v.words.size)
    (hlow : ((bitsOfWords v.words.toList).take (low * 64)).count false ≤ k)
    (hhigh : k < ((bitsOfWords v.words.toList).take (high * 64)).count false) :
    ∃ i < v.words.size, v.halveZeros k low high = .ok i ∧
      ((bitsOfWords v.words.toList).take (i * 64)).count false ≤ k ∧
      k < ((bitsOfWords v.words.toList).take ((i + 1) * 64)).count false := by
  induction hn : high - low using Nat.strong_induction_on generalizing low high with
  | h n ih =>
    rw [halveZeros, if_neg (Nat.not_lt.2 hlt.le)]
    show ∃ i < _, (if 1 < high - low then _ else _) = _ ∧ _
    split
    · rename_i hmore
      dsimp only
      rw [v.zerosBefore_eq (show low + (high - low) / 2 < v.words.size by omega), Except.ok_bind]
      split
      · rename_i hmid
        exact ih _ (by omega) (by omega) hle hmid hhigh rfl
      · rename_i hmid
        exact ih _ (by omega) (by omega) (by omega) hlow (Nat.lt_of_not_le hmid) rfl
    · rename_i hone
      obtain rfl : high = low + 1 := by omega
      exact ⟨low, by omega, rfl, hlow, hhigh⟩

theorem trySelect0_eq (k : Nat) : v.trySelect0 k = .ok (v.toList.idxsOf false)[k]? := by
  have hsum := count_true_add_count_false v.toList
  rw [← size_eq] at hsum
  rw [trySelect0, count_eq, Checked.sub_eq_ok (by omega), Except.ok_bind,
    show v.size - v.toList.count true = v.toList.count false by omega]
  split
  · rename_i hk
    rw [← List.length_idxsOf] at hk
    rw [List.getElem?_eq_none hk]
    rfl
  · rename_i hk
    have hk := Nat.lt_of_not_le hk
    have hpos : 0 < v.words.size := by
      rw [v.size_words, wordCount]
      omega
    have hend : k < ((bitsOfWords v.words.toList).take (v.words.size * 64)).count false := by
      have hall : (bitsOfWords v.words.toList).length ≤ v.words.size * 64 := by
        rw [length_bitsOfWords, Array.length_toList]
      rw [List.take_of_length_le hall, v.bits_eq, List.count_append]
      omega
    obtain ⟨i, hi, hhalve, hlow, hhigh⟩ := v.exists_halveZeros hpos le_rfl (by simp) hend
    have hget := Array.getElem?_eq_getElem hi
    obtain ⟨q, hq, hplace⟩ := exists_selectInWord hget false k hlow hhigh hk
    rw [hhalve, Except.ok_bind, v.zerosBefore_eq hi, Except.ok_bind, Checked.sub_eq_ok hlow,
      Except.ok_bind, Checked.element_eq_ok.2 hget, Except.ok_bind]
    rw [if_neg Bool.false_ne_true] at hq
    rw [hq, Except.ok_bind, hplace]
    rfl

end BitVector

end Paradigm
