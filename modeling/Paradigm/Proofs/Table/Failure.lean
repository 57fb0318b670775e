import Mathlib
import Paradigm.Proofs.Failure
import Paradigm.Proofs.Table.Strings
import Paradigm.Proofs.Trie.StringMap.Building
import Paradigm.Table.SortedTable
import Paradigm.Table.TrieTable

/-!
# Failures to build and to store tables

Tables are refused for want of room only: a section is stored unless it has too many elements, a
sorted table is built of strings that are short enough, and a trie of any strings.

## Main results

* `SortedTable.failsOnly_ofList`, `TrieTable.failsOnly_ofList`: tables of given strings
* `SortedTable.failsOnly_write` and its companions: sections
* `StringTable.exists_require`: strings that are in a table
* `PackedArray.exists_ofList_of_lt`, `StringMap.exists_ofList_zip`: arrays and maps of few values
-/

namespace Paradigm

/-! ## Sections -/

theorem PackedArray.failsOnly_write {α : Type} (a : PackedArray α) (out : Writer) :
    FailsOnly NoRoom (a.write out) :=
  (failsOnly_putCount _ _).bind fun _ _ => .ok _

theorem BitVector.failsOnly_write (v : BitVector) (out : Writer) :
    FailsOnly NoRoom (v.write out) :=
  (failsOnly_putCount _ _).bind fun _ _ => .ok _

theorem ByteTrie.failsOnly_write (t : ByteTrie) (out : Writer) :
    FailsOnly NoRoom (t.write out) := by
  refine (failsOnly_putCount _ _).bind fun _ _ => ?_
  refine (t.tree.failsOnly_write _).bind fun _ _ => ?_
  exact (t.terminal.failsOnly_write _).bind fun _ _ => .ok _

theorem StringMap.failsOnly_write {α : Type} (m : StringMap α) (out : Writer) :
    FailsOnly NoRoom (m.write out) := by
  refine (failsOnly_putCount _ _).bind fun _ _ => ?_
  refine (m.values.failsOnly_write _).bind fun _ _ => ?_
  cases m.trie with
  | none => exact .ok _
  | some t => exact t.trie.failsOnly_write _

theorem SortedTable.failsOnly_write (t : SortedTable) (out : Writer) :
    FailsOnly NoRoom (t.write out) := by
  refine (failsOnly_putCount _ _).bind fun _ _ => ?_
  exact (failsOnly_putCount _ _).bind fun _ _ => .ok _

theorem TrieTable.failsOnly_write (t : TrieTable) (out : Writer) :
    FailsOnly NoRoom (t.write out) :=
  (failsOnly_putCount _ _).bind fun _ _ => t.trie.trie.failsOnly_write _

/-! ## Arrays and maps -/

/-- A number of values below this limit can be stored in any width. -/
theorem mul_wordBits_lt {n : Nat} (h : n < 2 ^ 58) : n * wordBits < addressLimit := by
  rw [wordBits, addressLimit]
  omega

section Values

variable {α : Type} [FixedInt α]

theorem PackedArray.exists_ofList_of_lt {values : List α} (h : values.length < 2 ^ 58) :
    ∃ a, ofList values = .ok a :=
  exists_ofList (mul_wordBits_lt h)

omit [FixedInt α] in
theorem map_fst_zip_eq_take (keys : List String) (values : List α) :
    (keys.zip values).map Prod.fst = keys.take values.length := by
  induction keys generalizing values with
  | nil => simp
  | cons k keys ih =>
    cases values with
    | nil => simp
    | cons v values => simp [ih]

/-- Distinct keys make a map with any values. -/
theorem StringMap.exists_ofList_zip {keys : List String} (hkeys : keys.Nodup)
    (h : keys.length < 2 ^ 58) (values : List α) : ∃ m, ofList (keys.zip values) = .ok m := by
  apply exists_ofList
  · rw [map_fst_zip_eq_take]
    exact hkeys.sublist (List.take_sublist _ _)
  · rw [List.length_zip]
    exact mul_wordBits_lt ((min_le_left _ _).trans_lt h)

end Values

/-! ## Tables of strings -/

theorem SortedTable.failsOnly_entriesFrom (offset : Nat) (strings : List (List Nat)) :
    FailsOnly NoRoom (entriesFrom offset strings) := by
  induction strings generalizing offset with
  | nil => exact .ok []
  | cons s rest ih =>
    rw [entriesFrom]
    split
    · exact .error (.stringTooLarge _)
    split
    · exact .error .offsetOverflow
    · exact (ih _).bind fun _ _ => .ok _

theorem SortedTable.failsOnly_ofList (strings : List String) :
    FailsOnly NoRoom (ofList strings) :=
  (failsOnly_entriesFrom _ _).bind fun _ _ => .ok _

theorem TrieTable.failsOnly_ofList (strings : List String) : FailsOnly NoRoom (ofList strings) :=
  (ByteTrie.failsOnly_write _ _).bind fun _ _ => .ok _

/-- A string of a table has an identifier. -/
theorem StringTable.exists_require {τ : Type} [StringTable τ] {t : τ} {strings : List String}
    (h : Numbers t strings) {s : String} (hs : s ∈ strings) : ∃ id, require t s = .ok id := by
  obtain ⟨id, hid⟩ := h.mem_iff.1 hs
  exact ⟨id, require_eq_ok.2 hid⟩

end Paradigm
