import Mathlib
import Paradigm.Proofs.Storage.BitVector.Queries
import Paradigm.Proofs.Storage.Locality

/-!
# The answers of bit vectors

A bit vector answers as its list of bits tells: ranks are counts in the bits before a position, and
the selections are the positions at which a count is reached.  This holds for bits that were added
one after the other, and for bits that were read, whatever was stored behind them.

## Main definitions

* `BitVector.Answers`: the queries of a vector are answered by a list of bits

## Main results

* `BitVector.rank1_eq`, `BitVector.rank0_eq`: ranks are counts before a position
* `BitVector.select1_eq_some_iff`, `BitVector.select0_eq_some_iff`: a selection is the position of a
  bit of its kind with the given rank
* `BitVector.lt_rank1_iff`, `BitVector.lt_rank0_iff`, `BitVector.rank0_le_iff`: which bits stand
  before which
* `BitVector.readsBack_write`: the stored form is read back
* `BitVector.answers_of_bits`: bits that were added, and bits that were read
-/

namespace Paradigm

/-! ## Positions of bits -/

/-- The `k`-th position of a kind is the one of the bit that `k` bits of its kind precede. -/
theorem getElem?_idxsOf {kind : Bool} {bits : List Bool} {start k q : Nat} :
    (bits.idxsOf kind start)[k]? = some q ↔
      ∃ i, q = start + i ∧ bits[i]? = some kind ∧ (bits.take i).count kind = k := by
  induction bits generalizing start k with
  | nil => simp
  | cons b bits ih =>
    rw [List.idxsOf_cons]
    by_cases hb : b = kind
    -- the first bit is listed: it is entry zero, and the other entries move by one
    · subst hb
      rw [if_pos (beq_self_eq_true b)]
      cases k with
      | zero =>
        constructor
        · intro h
          exact ⟨0, by simp_all, by simp, by simp⟩
        · rintro ⟨i, rfl, -, hcount⟩
          cases i with
          | zero => simp
          | succ i => simp at hcount
      | succ k =>
        rw [List.getElem?_cons_succ, ih]
        constructor
        · rintro ⟨i, rfl, hi, hcount⟩
          exact ⟨i + 1, by omega, by simpa using hi, by simpa using hcount⟩
        · rintro ⟨i, rfl, hi, hcount⟩
          cases i with
          | zero => simp at hcount
          | succ i => exact ⟨i, by omega, by simpa using hi, by simpa using hcount⟩
    -- the first bit is not listed, and shifts positions only
    · rw [if_neg (by simpa using hb), ih]
      constructor
      · rintro ⟨i, rfl, hi, hcount⟩
        exact ⟨i + 1, by omega, by simpa using hi, by simpa [hb] using hcount⟩
      · rintro ⟨i, rfl, hi, hcount⟩
        cases i with
        | zero => simp_all
        | succ i => exact ⟨i, by omega, by simpa using hi, by simpa [hb] using hcount⟩

namespace BitVector

theorem ext_toList {v w : BitVector} (h : v.toList = w.toList) : v = w :=
  ext_words (BitWords.words_eq h) (by rw [size_eq, size_eq, h])

@[simp] theorem toList_ofWords (b : BitWords) : (ofWords b).toList = b.toList := rfl

@[simp] theorem toList_ofList (bits : List Bool) : (ofList bits).toList = bits := by
  rw [ofList, toList_ofWords, BitWords.toList_foldl_push, BitWords.toList_empty, List.nil_append]

theorem get?_eq (v : BitVector) (p : Nat) : v.get? p = v.toList[p]? := by
  rw [get?, tryGet_eq]
  rfl

/-- The set bits are counted at their positions. -/
theorem sum_get? (v : BitVector) :
    ∑ p ∈ Finset.range v.size, (if v.get? p = some true then 1 else 0) = v.count := by
  rw [count_eq, size_eq]
  simp only [get?_eq]
  induction v.toList with
  | nil => rfl
  | cons b bits ih =>
    rw [List.length_cons, Finset.sum_range_succ', List.count_cons]
    simp only [List.getElem?_cons_succ, List.getElem?_cons_zero, ih]
    cases b <;> rfl

/-! ## Ranks -/

/-- The rank of set bits is their count before the position. -/
theorem rank1_eq (v : BitVector) (p : Nat) : v.rank1 p = (v.toList.take p).count true := by
  rw [rank1, tryRank1_eq]
  rfl

/-- The rank of clear bits is their count before the position. -/
theorem rank0_eq (v : BitVector) (p : Nat) : v.rank0 p = (v.toList.take p).count false := by
  rw [rank0, tryRank0_eq]
  rfl

/-! ## Selections -/

theorem select1_eq (v : BitVector) (k : Nat) : v.select1 k = (v.toList.idxsOf true)[k]? := by
  rw [select1, trySelect1_eq]
  rfl

theorem select0_eq (v : BitVector) (k : Nat) : v.select0 k = (v.toList.idxsOf false)[k]? := by
  rw [select0, trySelect0_eq]
  rfl

theorem select1_eq_some_iff (v : BitVector) (k q : Nat) :
    v.select1 k = some q ↔ v.toList[q]? = some true ∧ (v.toList.take q).count true = k := by
  rw [select1_eq, getElem?_idxsOf]
  simp

theorem select0_eq_some_iff (v : BitVector) (k q : Nat) :
    v.select0 k = some q ↔ v.toList[q]? = some false ∧ (v.toList.take q).count false = k := by
  rw [select0_eq, getElem?_idxsOf]
  simp

theorem select1_eq_none_iff (v : BitVector) (k : Nat) : v.select1 k = none ↔ v.count ≤ k := by
  rw [select1_eq, List.getElem?_eq_none_iff, List.length_idxsOf, count_eq]

theorem exists_select1 {v : BitVector} {k : Nat} (h : k < v.count) : ∃ q, v.select1 k = some q :=
  Option.ne_none_iff_exists'.1 fun hnone =>
    Nat.not_le_of_lt h ((v.select1_eq_none_iff k).1 hnone)

theorem exists_select0 {v : BitVector} {k : Nat} (h : k < v.toList.count false) :
    ∃ q, v.select0 k = some q := by
  rw [← List.length_idxsOf] at h
  exact ⟨_, (v.select0_eq k).trans (List.getElem?_eq_getElem h)⟩

/-- The bits of a kind before a position are those that stand before the one with a given rank, or
more. -/
theorem lt_count_take_iff {bits : List Bool} {kind : Bool} {k q : Nat}
    (hq : bits[q]? = some kind) (hk : (bits.take q).count kind = k) (p : Nat) :
    k < (bits.take p).count kind ↔ q < p := by
  constructor
  · intro h
    by_contra hle
    exact Nat.not_le_of_lt h (hk ▸ count_take_le bits kind (Nat.le_of_not_lt hle))
  · intro h
    have hnext : (bits.take (q + 1)).count kind = k + 1 := by
      rw [List.take_add_one, hq, List.count_append, hk]
      simp
    calc k < (bits.take (q + 1)).count kind := by omega
      _ ≤ (bits.take p).count kind := count_take_le bits kind h

/-! ## Checked queries -/

theorem tryGet_eq_get? (v : BitVector) (p : Nat) : v.tryGet p = .ok (v.get? p) := by
  rw [tryGet_eq, get?_eq]

theorem tryRank1_eq_rank1 (v : BitVector) (p : Nat) : v.tryRank1 p = .ok (v.rank1 p) := by
  rw [tryRank1_eq, rank1_eq]

theorem trySelect0_eq_select0 (v : BitVector) (k : Nat) : v.trySelect0 k = .ok (v.select0 k) := by
  rw [trySelect0_eq, select0_eq]

/-! ## Which bits stand before which -/

section Selections

variable {v : BitVector} {k l p q : Nat}

/-- A set bit stands before a position if the rank of the position is greater than its own. -/
theorem lt_rank1_iff (h : v.select1 k = some q) (p : Nat) : k < v.rank1 p ↔ q < p := by
  obtain ⟨hq, hk⟩ := (v.select1_eq_some_iff k q).1 h
  rw [rank1_eq, lt_count_take_iff hq hk]

/-- A clear bit stands before a position if the rank of the position is greater than its own. -/
theorem lt_rank0_iff (h : v.select0 k = some q) (p : Nat) : k < v.rank0 p ↔ q < p := by
  obtain ⟨hq, hk⟩ := (v.select0_eq_some_iff k q).1 h
  rw [rank0_eq, lt_count_take_iff hq hk]

/-- A set bit and a clear bit stand before each other as their ranks tell. -/
theorem rank0_le_iff (hp : v.select1 k = some p) (hq : v.select0 l = some q) :
    v.rank0 p ≤ l ↔ k < v.rank1 q := by
  have hne : p ≠ q := by
    rintro rfl
    have hset := ((v.select1_eq_some_iff k p).1 hp).1
    have hclear := ((v.select0_eq_some_iff l p).1 hq).1
    rw [hset] at hclear
    cases hclear
  rw [← Nat.not_lt, lt_rank0_iff hq, lt_rank1_iff hp]
  omega

theorem rank0_mono (v : BitVector) (h : p ≤ q) : v.rank0 p ≤ v.rank0 q := by
  rw [rank0_eq, rank0_eq]
  exact count_take_le _ _ h

theorem rank1_le_count (v : BitVector) (p : Nat) : v.rank1 p ≤ v.count := by
  rw [rank1_eq, count_eq]
  exact (List.take_sublist _ _).count_le _

theorem rank1_add_rank0 (h : p ≤ v.size) : v.rank1 p + v.rank0 p = p := by
  rw [rank1_eq, rank0_eq, count_true_add_count_false, List.length_take, ← size_eq,
    Nat.min_eq_left h]

theorem select1_le (h : k ≤ l) (hp : v.select1 k = some p) (hq : v.select1 l = some q) :
    p ≤ q := by
  by_contra hlt
  have hlt := (lt_rank1_iff hq p).2 (Nat.lt_of_not_le hlt)
  rw [rank1_eq, ((v.select1_eq_some_iff k p).1 hp).2] at hlt
  omega

/-- The position of a clear bit is the number of bits before it. -/
theorem rank1_select0 (h : v.select0 k = some q) : v.rank1 q + k = q := by
  obtain ⟨hq, hk⟩ := (v.select0_eq_some_iff k q).1 h
  obtain ⟨hlt, -⟩ := List.getElem?_eq_some_iff.1 hq
  rw [← hk, ← rank0_eq]
  exact rank1_add_rank0 (hlt.le.trans_eq v.size_eq.symm)

theorem rank1_succ_of_select0 (h : v.select0 k = some q) : v.rank1 (q + 1) = v.rank1 q := by
  obtain ⟨hq, -⟩ := (v.select0_eq_some_iff k q).1 h
  rw [rank1_eq, rank1_eq, List.take_add_one, hq, List.count_append]
  rfl

/-- Clear bits stand one after the other. -/
theorem select0_lt (hp : v.select0 k = some p) (hq : v.select0 (k + 1) = some q) : p < q := by
  have hrank : v.rank0 q = k + 1 := by
    rw [rank0_eq]
    exact ((v.select0_eq_some_iff (k + 1) q).1 hq).2
  exact (lt_rank0_iff hp q).1 (by omega)

/-- Between two clear bits that follow each other there are set bits only. -/
theorem rank1_between (hp : v.select0 k = some p) (hq : v.select0 (k + 1) = some q) :
    v.rank1 (p + 1) + (q - (p + 1)) = v.rank1 q := by
  have hlt := select0_lt hp hq
  have hfirst := rank1_select0 hp
  have hlast := rank1_select0 hq
  rw [rank1_succ_of_select0 hp]
  omega

end Selections

/-! ## The stored form -/

/-- Words that hold bits first are read as these bits. -/
theorem readsBack_words {out out' : Writer} {size : Nat} (h : out.putCount size = .ok out')
    (reserved : Int32) (words : Vector UInt64 (wordCount size)) :
    ReadsBack out ((out'.put reserved).putAll words.toList) read
      (ofWords (.ofStored size words)) := by
  apply (readsBack_putCount h).bind
  apply (readsBack_put out' reserved).bind
  exact (readsBack_putVector _ words).bind (ReadsBack.pure _ _)

/-- A stored bit vector is read back. -/
theorem readsBack_write {v : BitVector} {out out' : Writer} (h : v.write out = .ok out') :
    ReadsBack out out' read v := by
  obtain ⟨mid, hmid, h⟩ := Except.bind_eq_ok.1 h
  obtain rfl := Except.ok.inj h
  have hread := readsBack_words hmid 0 ⟨v.words, v.size_words⟩
  have hself : ofWords (.ofStored v.size ⟨v.words, v.size_words⟩) = v :=
    ext_words v.words_ofStored rfl
  rwa [hself] at hread

theorem local_read : Reader.Local read := by
  apply Reader.local_readCount.bind
  intro length
  apply (Reader.local_read Int32).bind
  intro _
  exact (Reader.local_readVector UInt64 _).bind fun _ => Reader.local_pure _

/-! ## All queries -/

/-- The queries of a vector are answered as a list of bits tells, and no index and no difference on
the way is out of range. -/
structure Answers (v : BitVector) (bits : List Bool) : Prop where
  get : ∀ p, v.tryGet p = .ok bits[p]?
  rank1 : ∀ p, v.tryRank1 p = .ok ((bits.take p).count true)
  rank0 : ∀ p, v.tryRank0 p = .ok ((bits.take p).count false)
  select1 : ∀ k, v.trySelect1 k = .ok (bits.idxsOf true)[k]?
  select0 : ∀ k, v.trySelect0 k = .ok (bits.idxsOf false)[k]?

theorem answers_toList (v : BitVector) : v.Answers v.toList where
  get := v.tryGet_eq
  rank1 := v.tryRank1_eq
  rank0 := v.tryRank0_eq
  select1 := v.trySelect1_eq
  select0 := v.trySelect0_eq

/-- **Every sequence of bits is answered for**, added bit by bit or read from words that hold it
first, with any bits behind it in the last word: a bit is looked up, the bits of a kind before a
position are counted, and the positions of bits of a kind are found in their order, without an index
or a difference that is out of range. -/
theorem answers_of_bits (bits : List Bool) :
    (ofWords (bits.foldl BitWords.push .empty)).Answers bits ∧
      ∀ (out mid : Writer) (reserved : Int32) (words : Vector UInt64 (wordCount bits.length)),
        out.putCount bits.length = .ok mid → bits <+: bitsOfWords words.toList →
        ∃ v, ReadsBack out ((mid.put reserved).putAll words.toList) read v ∧ v.Answers bits := by
  refine ⟨?_, fun out mid reserved words hmid hbits => ?_⟩
  · have hlist := answers_toList (ofList bits)
    rwa [toList_ofList] at hlist
  · refine ⟨_, readsBack_words hmid reserved words, ?_⟩
    have hlist := answers_toList (ofWords (.ofStored bits.length words))
    rwa [toList_ofWords, BitWords.toList_ofStored, ← List.prefix_iff_eq_take.1 hbits] at hlist

/-- Sixty-four set bits, a clear and a set one, with set bits behind them in their second word. -/
theorem answers_of_bits_across_words : ∃ mid v,
    Writer.empty.putCount 66 = .ok mid ∧
      List.replicate 64 true ++ [false, true] <+:
        bitsOfWords [0xFFFFFFFFFFFFFFFF, 0xFFFFFFFFFFFFFFFE] ∧
      ReadsBack .empty ((mid.put (7 : Int32)).putAll
        [(0xFFFFFFFFFFFFFFFF : UInt64), 0xFFFFFFFFFFFFFFFE]) read v ∧
      v.tryRank0 1000 = .ok 1 ∧ v.trySelect0 0 = .ok (some 64) ∧ v.trySelect0 1 = .ok none ∧
      v.trySelect1 64 = .ok (some 65) ∧ v.tryGet 66 = .ok none := by
  have hmid : Writer.empty.putCount 66 = .ok (Writer.empty.put (Int32.ofNat 66)) := rfl
  have hbits : List.replicate 64 true ++ [false, true] <+:
      bitsOfWords [0xFFFFFFFFFFFFFFFF, 0xFFFFFFFFFFFFFFFE] := by decide +kernel
  obtain ⟨v, hread, h⟩ := (answers_of_bits (List.replicate 64 true ++ [false, true])).2 .empty _ 7
    ⟨#[0xFFFFFFFFFFFFFFFF, 0xFFFFFFFFFFFFFFFE], rfl⟩ hmid hbits
  refine ⟨_, v, hmid, hbits, hread, (h.rank0 1000).trans ?_, (h.select0 0).trans ?_,
    (h.select0 1).trans ?_, (h.select1 64).trans ?_, (h.get 66).trans ?_⟩
  all_goals rfl

end BitVector

end Paradigm
