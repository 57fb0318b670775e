import Mathlib
import Paradigm.Proofs.Table.TrieTable
import Paradigm.Proofs.Trie.ByteTrie.Building

/-!
# When tables in tries are built, and what they hold

The size of the trie is all that can stop the building of a table.  A table that is built numbers
the strings of a list without gaps, and neither their order nor their repetitions make a difference
to it, as long as they do not change the encoding.

## Main definitions

* `TrieTable.nodeCount`: the number of nodes of the trie of a list of strings

## Main results

* `TrieTable.exists_ofList`, `TrieTable.exists_ofList_eq_error`: the tables that are built
* `TrieTable.ofList_congr`: tables of the same strings
* `TrieTable.ofList_identifies_strings`: the answers of the table of a list of strings
-/

namespace Paradigm

open Text (Encoding)

namespace TrieTable

/-! ## Building -/

/-- The number of nodes of the trie of a list of strings: one for each beginning of their bytes. -/
def nodeCount (strings : List String) : Nat :=
  (nodePaths (strings.map (Encoding.selectSmallest strings).encode)).length

theorem nodeCount_ofKeys (strings : List String) :
    (StringTrie.ofKeys strings).trie.nodeCount = nodeCount strings :=
  (ByteTrie.represents_ofKeys _).nodeCount_eq

theorem wellShaped_ofKeys (strings : List String) : (StringTrie.ofKeys strings).trie.wellShaped :=
  (ByteTrie.represents_ofKeys _).wellShaped

theorem exists_ofList {strings : List String} (h : 2 * nodeCount strings + 1 < countLimit) :
    ∃ t, ofList strings = .ok t := by
  rw [← nodeCount_ofKeys] at h
  obtain ⟨stored, hstored⟩ := ByteTrie.exists_write (wellShaped_ofKeys strings) h .empty
  refine ⟨⟨StringTrie.ofKeys strings, 8 + stored.position⟩, ?_⟩
  rw [ofList, hstored]
  rfl

theorem exists_ofList_eq_error {strings : List String}
    (h : countLimit ≤ 2 * nodeCount strings + 1) :
    ∃ count ≥ countLimit, ofList strings = .error (.corrupt (.countTooLarge count)) := by
  rw [← nodeCount_ofKeys] at h
  obtain ⟨count, hcount, herror⟩ :=
    ByteTrie.exists_write_eq_error (wellShaped_ofKeys strings) h .empty
  refine ⟨count, hcount, ?_⟩
  rw [ofList, herror]
  rfl

/-- Tables of the same strings are equal if their encodings are. -/
theorem ofList_congr {strings others : List String} (hmem : ∀ s, s ∈ others ↔ s ∈ strings)
    (hencoding : Encoding.selectSmallest others = Encoding.selectSmallest strings) :
    ofList others = ofList strings := by
  have htrie : StringTrie.ofKeys others = StringTrie.ofKeys strings := by
    rw [StringTrie.ofKeys, StringTrie.ofKeys, hencoding, StringTrie.ofKeysIn, StringTrie.ofKeysIn]
    congr 1
    apply ByteTrie.ofKeys_congr
    intro k
    simp only [List.mem_map, hmem]
  rw [ofList, ofList, htrie]

/-! ## Answers -/

section Stores

variable {t : TrieTable} {strings : List String}

/-- The strings that have no identifier are those that are not in the table. -/
theorem identifier?_eq_none_iff (h : t.trie.Stores strings) {s : String} :
    t.identifier? s = none ↔ s ∉ strings := by
  rw [h.numbering.mem_iff, not_exists, Option.eq_none_iff_forall_ne_some]
  rfl

/-- All pairs of a string and its identifier are listed, each once. -/
theorem exists_strings_eq (h : t.trie.Stores strings) : ∃ entries : List (String × Nat),
    t.strings = entries.map .ok ∧ entries.Nodup ∧
      ∀ s id, (s, id) ∈ entries ↔ t.identifier? s = some id := by
  obtain ⟨entries, hentries, hmem, hpairwise⟩ := h.withPrefix_eq ""
  refine ⟨entries, hentries, .of_map _ (StringTrie.nodup_of_pairwise_encode hpairwise), ?_⟩
  intro s id
  rw [hmem, identifier?, h.lookup_eq_some_iff]
  exact and_iff_right List.nil_prefix

end Stores

/-- **A table in a trie numbers the distinct strings of a list without gaps.**  It is built if there
is room for the number of tree bits, and refused otherwise.  Its identifiers are the numbers below
its size, each leads to its string and back, all of them are listed once with their strings, and
strings that are not in the list have none.  A list with the same strings in another order, or with
other repetitions, gives the same table if the same encoding is selected for it. -/
theorem ofList_identifies_strings (strings : List String) :
    (2 ^ 31 ≤ 2 * nodeCount strings + 1 →
      ∃ count ≥ 2 ^ 31, ofList strings = .error (.corrupt (.countTooLarge count))) ∧
    (2 * nodeCount strings + 1 < 2 ^ 31 → ∃ t, ofList strings = .ok t ∧
      t.encoding = Encoding.selectSmallest strings ∧
      t.size = strings.toFinset.card ∧
      (∀ id, id < t.size ↔ ∃ s ∈ strings, t.identifier? s = some id) ∧
      (∀ id < t.size, ∃ s, t.string id = .ok s ∧ t.identifier? s = some id) ∧
      (∀ s id, t.identifier? s = some id → t.string id = .ok s) ∧
      (∀ s, t.identifier? s = none ↔ s ∉ strings) ∧
      (∀ s, StringTable.require t s = .error (.notFound s) ↔ s ∉ strings) ∧
      (∀ id, t.size ≤ id → t.string id = .error (.indexOutOfBounds id t.size)) ∧
      (∃ entries : List (String × Nat), t.strings = entries.map .ok ∧ entries.Nodup ∧
        ∀ s id, (s, id) ∈ entries ↔ s ∈ strings ∧ t.identifier? s = some id) ∧
      ∀ others, (∀ s, s ∈ others ↔ s ∈ strings) →
        Encoding.selectSmallest others = Encoding.selectSmallest strings →
        ofList others = .ok t) := by
  refine ⟨exists_ofList_eq_error, fun hroom => ?_⟩
  obtain ⟨t, ht⟩ := exists_ofList hroom
  have h := stores_of_ofList ht
  have hnone {s : String} : t.identifier? s = none ↔ s ∉ strings := by
    rw [identifier?_eq_none_iff h, mem_numberedStrings]
  have hmem {s : String} {id : Nat} (hs : t.identifier? s = some id) : s ∈ strings := by
    by_contra hnot
    rw [hnone.2 hnot] at hs
    cases hs
  have hstring {id : Nat} (hid : id < t.size) :
      ∃ s, t.string id = .ok s ∧ t.identifier? s = some id := by
    have hlt : id < (numberedStrings (Encoding.selectSmallest strings) strings).length :=
      hid.trans_eq h.size_eq
    have hget := List.getElem?_eq_getElem hlt
    exact ⟨_, h.key_eq_ok hget, h.lookup_eq_some_iff.2 hget⟩
  obtain ⟨entries, hentries, hnodup, hpairs⟩ := exists_strings_eq h
  refine ⟨t, ht, ?_, h.size_eq_card fun _ => mem_numberedStrings, fun id => ⟨fun hid => ?_, ?_⟩,
    fun id => hstring, fun s id => h.numbering.name_of_find?, fun s => hnone, fun s => ?_,
    fun id hid => ?_, ⟨entries, hentries, hnodup, fun s id => ?_⟩, fun others hsame hencoding => ?_⟩
  · obtain ⟨stored, -, ht⟩ := Except.bind_eq_ok.1 ht
    obtain rfl := Except.ok.inj ht
    rfl
  -- the identifiers are the numbers below the size
  · obtain ⟨s, -, hs⟩ := hstring hid
    exact ⟨s, hmem hs, hs⟩
  · rintro ⟨s, -, hs⟩
    exact (List.getElem?_eq_some_iff.1 (h.lookup_eq_some_iff.1 hs)).1.trans_eq h.size_eq.symm
  -- strings that are not there, and numbers that are none
  · rw [StringTable.require_eq_error_iff]
    exact hnone
  · rw [size, h.size_eq] at hid ⊢
    exact h.key_eq_error hid
  -- all strings, and other lists
  · rw [hpairs]
    exact ⟨fun hs => ⟨hmem hs, hs⟩, And.right⟩
  · rw [ofList_congr hsame hencoding, ht]

/-- The suffixes of two declensions, listed in two ways. -/
theorem ofList_identifies_strings_suffixes :
    2 * nodeCount ["s", "", "ves", "s"] + 1 < 2 ^ 31 ∧
    (∀ s, s ∈ ["ves", "s", "", "", "ves"] ↔ s ∈ ["s", "", "ves", "s"]) ∧
    Encoding.selectSmallest ["ves", "s", "", "", "ves"] =
      Encoding.selectSmallest ["s", "", "ves", "s"] ∧
    ∃ t, ofList ["s", "", "ves", "s"] = .ok t ∧ ofList ["ves", "s", "", "", "ves"] = .ok t ∧
      t.size = 3 ∧ t.identifier? "es" = none ∧ t.string 3 = .error (.indexOutOfBounds 3 3) := by
  have hutf8 : Encoding.selectSmallest ["s", "", "ves", "s"] = .utf8 := rfl
  have hnodes : nodeCount ["s", "", "ves", "s"] = 5 := by
    rw [nodeCount, hutf8]
    cbv
  have hroom : 2 * nodeCount ["s", "", "ves", "s"] + 1 < 2 ^ 31 := by
    rw [hnodes]
    decide
  have hmem : ∀ s, s ∈ ["ves", "s", "", "", "ves"] ↔ s ∈ ["s", "", "ves", "s"] := by
    intro s
    simp only [List.mem_cons, List.not_mem_nil, or_false]
    tauto
  have hencoding : Encoding.selectSmallest ["ves", "s", "", "", "ves"] =
      Encoding.selectSmallest ["s", "", "ves", "s"] := rfl
  obtain ⟨t, ht, -, hsize, -, -, -, hnone, -, hbeyond, -, hsame⟩ :=
    (ofList_identifies_strings ["s", "", "ves", "s"]).2 hroom
  have hthree : t.size = 3 := hsize.trans (by decide)
  refine ⟨hroom, hmem, hencoding, t, ht, hsame _ hmem hencoding, hthree,
    (hnone "es").2 (by decide), ?_⟩
  have hbeyond := hbeyond 3 hthree.le
  rwa [hthree] at hbeyond

end TrieTable

end Paradigm
