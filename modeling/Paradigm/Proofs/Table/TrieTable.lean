import Mathlib
import Paradigm.Proofs.Storage.Locality
import Paradigm.Proofs.Trie.StringTrie
import Paradigm.Table.TrieTable

/-!
# The answers of tables in tries

A table in a trie numbers its strings like the trie does, and is read back with the number of bytes
that it takes in the file.

## Main definitions

* `TrieTable.storedIn`: a table as it is read from a part of a file

## Main results

* `TrieTable.stores_of_ofList`: the table of a list of strings
* `TrieTable.numbers`: a table numbers its strings like its trie
* `TrieTable.readsBack_write`: the stored form is read back
-/

namespace Paradigm

open Text (Encoding)

namespace TrieTable

/-- The table of a list of strings holds these without repetitions. -/
theorem stores_of_ofList {strings : List String} {t : TrieTable} (h : ofList strings = .ok t) :
    t.trie.Stores (numberedStrings (Encoding.selectSmallest strings) strings) := by
  obtain ⟨stored, -, h⟩ := Except.bind_eq_ok.1 h
  obtain rfl := Except.ok.inj h
  exact StringTrie.stores_ofKeysIn _ strings

/-- A table numbers its strings like its trie. -/
theorem numbers {t : TrieTable} {strings : List String} (h : t.trie.Stores strings) :
    StringTable.Numbers t strings :=
  h.numbering

/-! ## The stored form -/

/-- A table as it is read from a part of a file. -/
def storedIn (t : TrieTable) (out out' : Writer) : TrieTable :=
  { t with encodedSize := out'.position - out.position }

/-- A table answers in a file as it does in memory. -/
theorem sameAnswers_storedIn (t : TrieTable) (out out' : Writer) :
    StringTable.SameAnswers t (t.storedIn out out') :=
  ⟨rfl, fun _ => rfl, fun _ => rfl⟩

theorem toInt_ofInt_number (e : Encoding) : (Int8.ofInt e.number).toInt = e.number := by
  cases e <;> rfl

/-- Reads a table that begins at a place. -/
def readFrom (start : Nat) : Reader TrieTable := do
  let encoding ← Reader.check (Encoding.ofNumber (← Reader.read Int8).toInt)
  Reader.skip 3
  let count ← Reader.readCount
  let trie ← ByteTrie.read
  if trie.size ≠ count then throw (.corrupt (.tableSize count trie.size))
  return ⟨⟨encoding, trie⟩, (← get).position - start⟩

/-- A stored table is read back. -/
theorem readsBack_write {t : TrieTable} {strings : List String} (ht : t.trie.Stores strings)
    {out out' : Writer} (h : t.write out = .ok out') :
    ReadsBack out out' read (t.storedIn out out') := by
  obtain ⟨o₁, h₁, h₂⟩ := Except.bind_eq_ok.1 h
  -- the number of bytes is the distance of the places before and after the table
  apply ReadsBack.get (g := readFrom) fun _ => rfl
  apply (readsBack_put out (Int8.ofInt t.encoding.number)).bind
  rw [toInt_ofInt_number]
  apply (ReadsBack.check (Encoding.ofNumber_number t.encoding) _).bind
  apply (readsBack_skip (out.put (Int8.ofInt t.encoding.number)) [0, 0, 0]).bind
  apply (readsBack_putCount h₁).bind
  apply (ByteTrie.readsBack_write ht.wellShaped h₂).bind
  have hsize : ¬ t.trie.trie.size ≠ t.size := fun hne => hne rfl
  rw [if_neg hsize]
  exact ReadsBack.get (g := fun stop => pure ⟨⟨t.encoding, t.trie.trie⟩, stop - out.position⟩)
    (fun _ => rfl) (ReadsBack.pure _ _)

theorem local_read : Reader.Local read := by
  apply Reader.local_get_bind (g := readFrom) fun _ => rfl
  intro start
  apply (Reader.local_read Int8).bind
  intro number
  apply (Reader.local_check _).bind
  intro encoding
  apply (Reader.local_skip 3).bind
  intro _
  apply Reader.local_readCount.bind
  intro count
  apply ByteTrie.local_read.bind
  intro trie
  apply Reader.Local.ite_throw
  exact Reader.local_get_bind (g := fun stop => pure ⟨⟨encoding, trie⟩, stop - start⟩)
    (fun _ => rfl) fun _ => Reader.local_pure _

end TrieTable

end Paradigm
