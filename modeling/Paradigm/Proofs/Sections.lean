import Mathlib
import Paradigm.Proofs.Table.SortedTable
import Paradigm.Proofs.Table.TrieTable
import Paradigm.Proofs.Trie.StringMap

/-!
# Sections in any place

The sections of a dictionary stand one after the other without an index, so that each must be found
again from the place where it begins alone.  Neither the bytes before a section nor those behind it
matter, although its padding depends on the place: the reader counts the same zeros as the writer.

## Main definitions

* `RecoveredIn`: what was written is read from its place in a longer file

## Main results

* `ReadsBack.recoveredIn`: a section that is read back is recovered in every longer file
* `sections_recovered`: the sections of bits, tries, maps and tables
-/

namespace Paradigm

variable {α : Type}

/-- What a writer put behind `out`, up to `out'`, is read from its place when `rest` follows: the
reader succeeds, stops at the end of what was written, and gives a value with a property. -/
def RecoveredIn (out out' : Writer) (rest : List UInt8) (r : Reader α) (p : α → Prop) : Prop :=
  ∃ (hstart : out.position ≤ (out'.append rest).toView.size)
    (hstop : out'.position ≤ (out'.append rest).toView.size) (a : α),
    r ⟨(out'.append rest).toView, out.position, hstart⟩ =
      .ok a ⟨(out'.append rest).toView, out'.position, hstop⟩ ∧ p a

/-- A section that is read back is recovered in every longer file. -/
theorem ReadsBack.recoveredIn {out out' : Writer} {r : Reader α} {a : α}
    (h : ReadsBack out out' r a) (rest : List UInt8) {p : α → Prop} (ha : p a) :
    RecoveredIn out out' rest r p := by
  have hlonger : out'.toList <+: (out'.append rest).toView.toList := by simp
  have hstart : out.position ≤ (out'.append rest).toView.size :=
    (h.grows.trans hlonger).length_le
  obtain ⟨hstop, hread⟩ := h.reads _ hlonger hstart
  exact ⟨hstart, hstop, a, hread, ha⟩

/-- **Every section is recovered from its place**, whatever stands before it and behind it: bits and
tries as they were, and maps and tables with the same answers. -/
theorem sections_recovered [FixedInt α] (out out' : Writer) (rest : List UInt8) :
    (∀ bits : List Bool, (BitVector.ofList bits).write out = .ok out' →
      RecoveredIn out out' rest BitVector.read (· = BitVector.ofList bits)) ∧
    (∀ keys : List (List UInt8), (ByteTrie.ofKeys keys).write out = .ok out' →
      RecoveredIn out out' rest ByteTrie.read (· = ByteTrie.ofKeys keys)) ∧
    (∀ (entries : List (String × α)) m, StringMap.ofList entries = .ok m →
      m.write out = .ok out' → RecoveredIn out out' rest (StringMap.read α) m.SameAnswers) ∧
    (∀ strings t, SortedTable.ofList strings = .ok t → t.write out = .ok out' →
      RecoveredIn out out' rest SortedTable.read fun u =>
        StringTable.SameAnswers t u ∧ u.strings = t.strings) ∧
    ∀ strings t, TrieTable.ofList strings = .ok t → t.write out = .ok out' →
      RecoveredIn out out' rest TrieTable.read fun u =>
        StringTable.SameAnswers t u ∧ u.trie = t.trie := by
  refine ⟨fun bits h => ?_, fun keys h => ?_, fun entries m hm h => ?_, fun strings t ht h => ?_,
    fun strings t ht h => ?_⟩
  · exact (BitVector.readsBack_write h).recoveredIn rest rfl
  · exact (ByteTrie.readsBack_write (ByteTrie.represents_ofKeys keys).wellShaped h).recoveredIn
      rest rfl
  · obtain ⟨strings, values, hstores, -⟩ := StringMap.stores_of_ofList hm
    exact (StringMap.readsBack_write hstores h).recoveredIn rest hstores.sameAnswers_mappedForm
  · have hstores := SortedTable.stores_of_ofList ht
    exact (SortedTable.readsBack_write hstores h).recoveredIn rest
      ⟨hstores.sameAnswers_mappedForm, SortedTable.strings_mappedForm t⟩
  · have hstores := TrieTable.stores_of_ofList ht
    exact (TrieTable.readsBack_write hstores h).recoveredIn rest
      ⟨TrieTable.sameAnswers_storedIn t out out', rfl⟩

theorem sections_recovered_unaligned :
    (∃ out', (BitVector.ofList [true, false]).write (Writer.empty.append [1, 2, 3]) = .ok out' ∧
      RecoveredIn (Writer.empty.append [1, 2, 3]) out' [255] BitVector.read
        (· = BitVector.ofList [true, false])) ∧
    (∃ out', (ByteTrie.ofKeys [[98], [97, 98]]).write (Writer.empty.append [1, 2, 3]) = .ok out' ∧
      RecoveredIn (Writer.empty.append [1, 2, 3]) out' [255] ByteTrie.read
        (· = ByteTrie.ofKeys [[98], [97, 98]])) ∧
    (∃ m out', StringMap.ofList [("cats", (9 : Int8)), ("cat", 7)] = .ok m ∧
      m.write (Writer.empty.append [1, 2, 3]) = .ok out' ∧
      RecoveredIn (Writer.empty.append [1, 2, 3]) out' [255] (StringMap.read Int8)
        m.SameAnswers) ∧
    (∃ t out', SortedTable.ofList ["cats", "cat"] = .ok t ∧
      t.write (Writer.empty.append [1, 2, 3]) = .ok out' ∧
      RecoveredIn (Writer.empty.append [1, 2, 3]) out' [255] SortedTable.read fun u =>
        StringTable.SameAnswers t u ∧ u.strings = t.strings) ∧
    ∃ t out', TrieTable.ofList ["cats", "cat"] = .ok t ∧
      t.write (Writer.empty.append [1, 2, 3]) = .ok out' ∧
      RecoveredIn (Writer.empty.append [1, 2, 3]) out' [255] TrieTable.read fun u =>
        StringTable.SameAnswers t u ∧ u.trie = t.trie := by
  obtain ⟨out, hout⟩ : ∃ out, Writer.empty.append [1, 2, 3] = out := ⟨_, rfl⟩
  have h (out' : Writer) := @sections_recovered Int8 _ out out' [255]
  obtain ⟨o₁, h₁⟩ : ∃ o, (BitVector.ofList [true, false]).write out = .ok o :=
    exists_eq_ok_of_isOk (by subst hout; decide +kernel)
  obtain ⟨o₂, h₂⟩ : ∃ o, (ByteTrie.ofKeys [[98], [97, 98]]).write out = .ok o :=
    exists_eq_ok_of_isOk (by subst hout; decide +kernel)
  obtain ⟨o₃, h₃⟩ : ∃ o,
      StringMap.ofList [("cats", (9 : Int8)), ("cat", 7)] >>= (·.write out) = .ok o :=
    exists_eq_ok_of_isOk (by subst hout; decide +kernel)
  -- the kernel does not unfold the sort of the strings
  obtain ⟨o₄, h₄⟩ : ∃ o, SortedTable.ofList ["cats", "cat"] >>= (·.write out) = .ok o :=
    exists_eq_ok_of_isOk (by subst hout; cbv)
  obtain ⟨o₅, h₅⟩ : ∃ o, TrieTable.ofList ["cats", "cat"] >>= (·.write out) = .ok o :=
    exists_eq_ok_of_isOk (by subst hout; decide +kernel)
  obtain ⟨m, hm, hm₃⟩ := Except.bind_eq_ok.1 h₃
  obtain ⟨t, ht, ht₄⟩ := Except.bind_eq_ok.1 h₄
  obtain ⟨u, hu, hu₅⟩ := Except.bind_eq_ok.1 h₅
  rw [hout]
  exact ⟨⟨o₁, h₁, (h o₁).1 _ h₁⟩, ⟨o₂, h₂, (h o₂).2.1 _ h₂⟩,
    ⟨m, o₃, hm, hm₃, (h o₃).2.2.1 _ m hm hm₃⟩, ⟨t, o₄, ht, ht₄, (h o₄).2.2.2.1 _ t ht ht₄⟩,
    u, o₅, hu, hu₅, (h o₅).2.2.2.2 _ u hu hu₅⟩

end Paradigm
