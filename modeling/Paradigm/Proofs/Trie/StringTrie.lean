import Mathlib
import Paradigm.Proofs.Table.Strings
import Paradigm.Proofs.Text.Encoding.Order
import Paradigm.Proofs.Trie.Entries
import Paradigm.Trie.StringTrie

/-!
# The answers of tries of strings

A trie of strings numbers them in the shortlex order of their bytes in the encoding of the trie.

## Main definitions

* `numberedStrings`: the distinct strings of a list, in the order of their numbers
* `StringTrie.Stores`: a trie stands for given strings

## Main results

* `StringTrie.stores_ofKeysIn`: the trie of a list of strings
* `StringTrie.Stores.numbering`: the numbers of strings
* `StringTrie.Stores.withPrefix_eq`: the strings that begin with a given one
* `StringTrie.ofKeysIn_withPrefix`: the same for the trie of a list of strings
-/

namespace Paradigm

open Text (Encoding codePoints)

/-- The distinct strings of a list, in the shortlex order of their bytes. -/
def numberedStrings (e : Encoding) (strings : List String) : List String :=
  (distinctPaths (strings.map e.encode)).filterMap e.decode?

theorem map_encode_filterMap_decode? {e : Encoding} {paths : List (List UInt8)}
    (h : ∀ p ∈ paths, ∃ s, e.encode s = p) : (paths.filterMap e.decode?).map e.encode = paths := by
  induction paths with
  | nil => rfl
  | cons p paths ih =>
    obtain ⟨s, rfl⟩ := h p List.mem_cons_self
    rw [List.filterMap_cons, Encoding.decode?_encode]
    show e.encode s :: _ = _
    rw [ih fun q hq => h q (List.mem_cons_of_mem _ hq)]

theorem map_encode_numberedStrings (e : Encoding) (strings : List String) :
    (numberedStrings e strings).map e.encode = distinctPaths (strings.map e.encode) := by
  apply map_encode_filterMap_decode?
  intro p hp
  obtain ⟨s, -, hs⟩ := List.mem_map.1 (mem_distinctPaths.1 hp)
  exact ⟨s, hs⟩

theorem mem_numberedStrings {e : Encoding} {strings : List String} {s : String} :
    s ∈ numberedStrings e strings ↔ s ∈ strings := by
  rw [← List.mem_map_of_injective e.encode_injective, map_encode_numberedStrings,
    mem_distinctPaths, List.mem_map_of_injective e.encode_injective]

namespace StringTrie

/-- The bytes of a string with the number of the string. -/
def encodeEntry (e : Encoding) (entry : String × Nat) : List UInt8 × Nat :=
  (e.encode entry.1, entry.2)

theorem encodeEntry_injective (e : Encoding) : Function.Injective (encodeEntry e) := by
  rintro ⟨s, i⟩ ⟨t, j⟩ h
  obtain ⟨hst, hij⟩ := Prod.mk.inj h
  exact Prod.ext (Encoding.encode_inj.1 hst) hij

theorem nodup_of_pairwise_encode {e : Encoding} {entries : List (String × Nat)}
    (h : entries.Pairwise fun a b => e.encode a.1 < e.encode b.1) :
    (entries.map Prod.fst).Nodup := by
  rw [List.nodup_iff_pairwise_ne, List.pairwise_map]
  refine h.imp fun hlt heq => ?_
  rw [heq] at hlt
  exact List.lt_irrefl _ hlt

/-- A trie stands for strings in the order of their numbers. -/
structure Stores (t : StringTrie) (strings : List String) : Prop where
  represents : ∃ nodes, t.trie.Represents nodes (strings.map t.encoding.encode)

/-- The trie of a list of strings stands for these strings without repetitions. -/
theorem stores_ofKeysIn (e : Encoding) (strings : List String) :
    (ofKeysIn e strings).Stores (numberedStrings e strings) := by
  refine ⟨nodePaths (strings.map e.encode), ?_⟩
  show (ByteTrie.ofKeys (strings.map e.encode)).Represents _
    ((numberedStrings e strings).map e.encode)
  rw [map_encode_numberedStrings]
  exact ByteTrie.represents_ofKeys _

namespace Stores

variable {t : StringTrie} {strings : List String} {s : String} {id : Nat}

theorem wellShaped (h : t.Stores strings) : t.trie.wellShaped := by
  obtain ⟨nodes, hnodes⟩ := h.represents
  exact hnodes.wellShaped

theorem nodup (h : t.Stores strings) : strings.Nodup := by
  obtain ⟨nodes, hnodes⟩ := h.represents
  exact hnodes.nodup_keys.of_map _

theorem size_eq (h : t.Stores strings) : t.size = strings.length := by
  obtain ⟨nodes, hnodes⟩ := h.represents
  rw [size, hnodes.size_eq, List.length_map]

/-- A trie has as many strings as there are different ones in a list with the same members. -/
theorem size_eq_card (h : t.Stores strings) {listed : List String}
    (hmem : ∀ s, s ∈ strings ↔ s ∈ listed) : t.size = listed.toFinset.card := by
  have hsets : listed.toFinset = strings.toFinset := by
    ext s
    rw [List.mem_toFinset, List.mem_toFinset, hmem]
  rw [hsets, List.toFinset_card_of_nodup h.nodup, h.size_eq]

theorem getElem?_map_encode :
    (strings.map t.encoding.encode)[id]? = some (t.encoding.encode s) ↔ strings[id]? = some s := by
  rw [List.getElem?_map, Option.map_eq_some_iff]
  constructor
  · rintro ⟨r, hr, hrs⟩
    rwa [← Encoding.encode_inj.1 hrs]
  · intro hs
    exact ⟨s, hs, rfl⟩

theorem lookup_eq_some_iff (h : t.Stores strings) :
    t.lookup s = some id ↔ strings[id]? = some s := by
  obtain ⟨nodes, hnodes⟩ := h.represents
  rw [lookup, hnodes.lookup_eq_some_iff, getElem?_map_encode]

theorem key_eq_ok (h : t.Stores strings) (hs : strings[id]? = some s) : t.key id = .ok s := by
  obtain ⟨nodes, hnodes⟩ := h.represents
  rw [key, hnodes.key_eq_ok (getElem?_map_encode.2 hs), Except.ok_bind, Encoding.decode_encode]

theorem key_eq_error (h : t.Stores strings) (hid : strings.length ≤ id) :
    t.key id = .error (.indexOutOfBounds id strings.length) := by
  obtain ⟨nodes, hnodes⟩ := h.represents
  rw [key, hnodes.key_eq_error (by rwa [List.length_map]), Except.error_bind, List.length_map]

/-- The numbers of strings are their places. -/
theorem numbering (h : t.Stores strings) : Numbering t.size t.lookup t.key strings where
  nodup := h.nodup
  size_eq := h.size_eq
  find?_eq_some_iff := fun _ _ => h.lookup_eq_some_iff
  name_eq_ok := fun _ _ => h.key_eq_ok

/-- What is listed are the bytes of strings with the numbers of these. -/
theorem mem_withPrefix_encode (h : t.Stores strings) {start : String} {k : List UInt8} :
    (k, id) ∈ t.trie.withPrefix (t.encoding.encode start) ↔
      ∃ s, t.encoding.encode s = k ∧ start.toList <+: s.toList ∧ strings[id]? = some s := by
  obtain ⟨nodes, hnodes⟩ := h.represents
  rw [hnodes.mem_withPrefix, List.getElem?_map, Option.map_eq_some_iff]
  constructor
  · rintro ⟨hpre, s, hs, rfl⟩
    exact ⟨s, rfl, Encoding.encode_prefix_iff.1 hpre, hs⟩
  · rintro ⟨s, rfl, hpre, hs⟩
    exact ⟨Encoding.encode_prefix_iff.2 hpre, s, hs, rfl⟩

/-- All that is listed are the bytes of entries. -/
theorem exists_entries (h : t.Stores strings) (start : String) : ∃ entries : List (String × Nat),
    entries.map (encodeEntry t.encoding) = t.trie.withPrefix (t.encoding.encode start) := by
  have hrange : t.trie.withPrefix (t.encoding.encode start) ∈
      Set.range (List.map (encodeEntry t.encoding)) := by
    rw [Set.range_list_map]
    rintro ⟨k, id⟩ hk
    obtain ⟨s, rfl, -, -⟩ := h.mem_withPrefix_encode.1 hk
    exact ⟨(s, id), rfl⟩
  exact hrange

/-- The strings that begin with a given one are listed with their numbers, in the order of their
bytes. -/
theorem withPrefix_eq (h : t.Stores strings) (start : String) : ∃ entries : List (String × Nat),
    t.withPrefix start = entries.map .ok ∧
      (∀ s id, (s, id) ∈ entries ↔ start.toList <+: s.toList ∧ strings[id]? = some s) ∧
      entries.Pairwise fun a b => t.encoding.encode a.1 < t.encoding.encode b.1 := by
  obtain ⟨entries, hentries⟩ := h.exists_entries start
  refine ⟨entries, ?_, fun s id => ?_, ?_⟩
  · rw [withPrefix, ← hentries, List.map_map]
    apply List.map_congr_left
    rintro ⟨s, id⟩ -
    show (t.encoding.decode (t.encoding.encode s)).map (·, id) = _
    rw [Encoding.decode_encode]
    rfl
  · rw [← List.mem_map_of_injective (encodeEntry_injective t.encoding), hentries, encodeEntry,
      h.mem_withPrefix_encode]
    constructor
    · rintro ⟨r, hr, hpre, hid⟩
      obtain rfl := Encoding.encode_inj.1 hr
      exact ⟨hpre, hid⟩
    · rintro ⟨hpre, hid⟩
      exact ⟨s, rfl, hpre, hid⟩
  · obtain ⟨nodes, hnodes⟩ := h.represents
    have hpairwise := hnodes.pairwise_withPrefix (t.encoding.encode start)
    rwa [← hentries, List.pairwise_map] at hpairwise

/-- All strings are listed once with their numbers. -/
theorem withPrefix_empty (h : t.Stores strings) : ∃ entries : List (String × Nat),
    t.withPrefix "" = entries.map .ok ∧ (entries.map Prod.fst).Perm strings ∧
      ∀ e ∈ entries, strings[e.2]? = some e.1 := by
  obtain ⟨entries, hentries, hmem, hpairwise⟩ := h.withPrefix_eq ""
  refine ⟨entries, hentries, ?_, fun e he => ((hmem e.1 e.2).1 he).2⟩
  refine (List.perm_ext_iff_of_nodup (nodup_of_pairwise_encode hpairwise) h.nodup).2 fun s => ?_
  rw [List.mem_map, List.mem_iff_getElem?]
  constructor
  · rintro ⟨⟨r, id⟩, he, rfl⟩
    exact ⟨id, ((hmem r id).1 he).2⟩
  · rintro ⟨id, hid⟩
    exact ⟨(s, id), (hmem s id).2 ⟨List.nil_prefix, hid⟩, rfl⟩

end Stores

/-- **The strings with a given beginning**: the walk through the trie of a list of strings meets all
that there is to meet, everything it gives can be read, and this is each of the distinct strings
that begin as is asked for, once and with the number that it is found with.  In two of the encodings
they come in the order of their code points. -/
theorem ofKeysIn_withPrefix (e : Encoding) (keys : List String) (start : String) :
    ((ofKeysIn e keys).trie.after (ofKeysIn e keys).trie.nodeCount
        ((ofKeysIn e keys).trie.walkFrom (e.encode start))).stack = [] ∧
      ∃ entries : List (String × Nat),
        (ofKeysIn e keys).withPrefix start = entries.map .ok ∧
        (entries.map fun entry => (entry.1, some entry.2)).Perm
          ((keys.dedup.filter fun k => start.toList <+: k.toList).map fun k =>
            (k, (ofKeysIn e keys).lookup k)) ∧
        (e ≠ .utf16le → entries.Pairwise fun a b => codePoints a.1 < codePoints b.1) := by
  have h := stores_ofKeysIn e keys
  obtain ⟨nodes, hnodes⟩ := h.represents
  refine ⟨hnodes.stack_after_walkFrom _ le_rfl, ?_⟩
  obtain ⟨entries, hentries, hmem, hpairwise⟩ := h.withPrefix_eq start
  refine ⟨entries, hentries, ?_, fun he => ?_⟩
  · have hnodup : (entries.map fun entry => (entry.1, some entry.2)).Nodup := by
      apply List.Nodup.of_map Prod.fst
      rw [List.map_map]
      exact nodup_of_pairwise_encode hpairwise
    have hnodup' : ((keys.dedup.filter fun k => start.toList <+: k.toList).map fun k =>
        (k, (ofKeysIn e keys).lookup k)).Nodup :=
      (keys.nodup_dedup.filter _).map fun _ _ heq => (Prod.mk.inj heq).1
    refine (List.perm_ext_iff_of_nodup hnodup hnodup').2 ?_
    rintro ⟨k, found⟩
    simp only [List.mem_map, List.mem_filter, List.mem_dedup, decide_eq_true_eq, Prod.mk.injEq]
    constructor
    · rintro ⟨⟨s, id⟩, he, rfl, rfl⟩
      obtain ⟨hpre, hid⟩ := (hmem s id).1 he
      have hs := mem_numberedStrings.1 (List.mem_of_getElem? hid)
      exact ⟨s, ⟨hs, hpre⟩, rfl, h.lookup_eq_some_iff.2 hid⟩
    · rintro ⟨s, ⟨hs, hpre⟩, rfl, rfl⟩
      obtain ⟨id, hid⟩ := List.mem_iff_getElem?.1 (mem_numberedStrings.2 hs)
      exact ⟨(s, id), (hmem s id).2 ⟨hpre, hid⟩, rfl, (h.lookup_eq_some_iff.2 hid).symm⟩
  · exact hpairwise.imp fun hlt => Encoding.codePoints_lt_of_encode_lt he hlt

theorem ofKeysIn_withPrefix_script : Encoding.utf8 ≠ .utf16le ∧ ∃ entries : List (String × Nat),
    (ofKeysIn .utf8 ["𝒳a", "ç", "𝒳", "𝒳a"]).withPrefix "𝒳" = entries.map .ok ∧
      entries = [("𝒳", 1), ("𝒳a", 2)] ∧
      entries.Pairwise fun a b => codePoints a.1 < codePoints b.1 := by
  have hutf8 : Encoding.utf8 ≠ .utf16le := by decide
  have hlisted : (ofKeysIn .utf8 ["𝒳a", "ç", "𝒳", "𝒳a"]).withPrefix "𝒳" =
      [("𝒳", 1), ("𝒳a", 2)].map .ok := by cbv
  obtain ⟨-, entries, hentries, -, hpairwise⟩ :=
    ofKeysIn_withPrefix .utf8 ["𝒳a", "ç", "𝒳", "𝒳a"] "𝒳"
  have hok : Function.Injective (Except.ok : String × Nat → Except StorageError _) :=
    fun _ _ h => Except.ok.inj h
  have heq := List.map_injective_iff.2 hok (hentries.symm.trans hlisted)
  exact ⟨hutf8, entries, hentries, heq, hpairwise hutf8⟩

end StringTrie

end Paradigm
