import Mathlib
import Paradigm.Proofs.Table.SortedTable

/-!
# When sorted tables are built

The strings of a table lie one after the other in the order of their code units.  Each must be short
and begin before a limit, and the first that does not decides how the building fails.

## Main definitions

* `SortedTable.storedLength`: the number of code units that strings take
* `SortedTable.place`: where a string of a list begins

## Main results

* `SortedTable.exists_entriesFrom_append`: what becomes of strings behind those that can be stored
* `SortedTable.ofList_numbers_strings`: a table is built, or its smallest long string is refused
-/

namespace Paradigm

namespace SortedTable

/-! ## Strings behind each other -/

/-- The number of code units that strings take, each with a zero behind it. -/
def storedLength (us : List (List Nat)) : Nat := (us.map fun u => u.length + 1).sum

theorem storedLength_cons (u : List Nat) (us : List (List Nat)) :
    storedLength (u :: us) = u.length + 1 + storedLength us := by
  rw [storedLength, List.map_cons, List.sum_cons, storedLength]

/-- Behind strings that can be stored, the building goes on from the place where they end. -/
theorem exists_entriesFrom_append {offset : Nat} {us : List (List Nat)}
    (h : ∀ i u, us[i]? = some u →
      u.length ≤ maxLength ∧ offset + storedLength (us.take i) ≤ maxOffset) :
    ∃ es, ∀ rest, entriesFrom offset (us ++ rest) =
      (es ++ ·) <$> entriesFrom (offset + storedLength us) rest := by
  induction us generalizing offset with
  | nil =>
    refine ⟨[], fun rest => ?_⟩
    show entriesFrom offset rest = (fun es => es) <$> entriesFrom offset rest
    rw [id_map']
  | cons u us ih =>
    obtain ⟨hlength, hoffset⟩ := h 0 u rfl
    obtain ⟨es, hes⟩ : ∃ es, ∀ rest, entriesFrom (offset + u.length + 1) (us ++ rest) =
        (es ++ ·) <$> entriesFrom (offset + u.length + 1 + storedLength us) rest := by
      apply ih
      intro i v hv
      obtain ⟨hv, hplace⟩ := h (i + 1) v hv
      rw [List.take_succ_cons, storedLength_cons] at hplace
      exact ⟨hv, by omega⟩
    refine ⟨entry offset u.length :: es, fun rest => ?_⟩
    have hplace : offset ≤ maxOffset := (Nat.le_add_right _ _).trans hoffset
    rw [List.cons_append, entriesFrom, if_neg (Nat.not_lt.2 hlength),
      if_neg (Nat.not_lt.2 hplace), hes, storedLength_cons, ← Nat.add_assoc, ← Nat.add_assoc]
    cases entriesFrom (offset + u.length + 1 + storedLength us) rest <;> rfl

/-! ## Places -/

/-- Where a string of a list begins: behind all that have smaller code units. -/
def place (strings : List String) (s : String) : Nat :=
  ∑ r ∈ strings.toFinset with Text.units r < Text.units s, ((Text.units r).length + 1)

/-- The strings up to a position are those before the string there. -/
theorem storedLength_take {strings : List String} {i : Nat} {s : String}
    (hs : (sortedStrings strings)[i]? = some s) :
    storedLength (((sortedStrings strings).map Text.units).take i) = place strings s := by
  have hsorted := pairwise_sortedStrings strings
  have hnodup : (sortedStrings strings).Nodup :=
    Pairwise.nodup_of_irrefl (fun s => lt_irrefl (Text.units s)) hsorted
  rw [place, sum_filter_toFinset hnodup fun _ => mem_sortedStrings,
    filter_eq_take (fun _ _ hrs hsr => lt_asymm hrs hsr) hsorted hs, storedLength, ← List.map_take,
    List.map_map]
  rfl

/-- What becomes of the strings of a list behind those that can be stored. -/
theorem exists_entriesFrom_sorted {strings before rest : List String}
    (hsplit : sortedStrings strings = before ++ rest)
    (h : ∀ s ∈ before, (Text.units s).length ≤ maxLength ∧ place strings s ≤ maxOffset) :
    ∃ es, entriesFrom 0 (distinctUnits strings) =
      (es ++ ·) <$> entriesFrom (storedLength (before.map Text.units)) (rest.map Text.units) := by
  have hfit : ∀ i u, (before.map Text.units)[i]? = some u →
      u.length ≤ maxLength ∧ 0 + storedLength ((before.map Text.units).take i) ≤ maxOffset := by
    intro i u hu
    rw [List.getElem?_map, Option.map_eq_some_iff] at hu
    obtain ⟨s, hs, rfl⟩ := hu
    have hi := (List.getElem?_eq_some_iff.1 hs).1
    have hall : (sortedStrings strings)[i]? = some s := by
      rw [hsplit, List.getElem?_append_left hi, hs]
    have htake : ((sortedStrings strings).map Text.units).take i =
        (before.map Text.units).take i := by
      rw [hsplit, List.map_append, List.take_append_of_le_length (by simpa using hi.le)]
    rw [Nat.zero_add, ← htake, storedLength_take hall]
    exact h s (List.mem_of_getElem? hs)
  obtain ⟨es, hes⟩ := exists_entriesFrom_append hfit
  refine ⟨es, ?_⟩
  rw [distinctUnits_eq, hsplit, List.map_append, hes, Nat.zero_add]

/-! ## Building -/

/-- A table is built of short strings that begin before the limit. -/
theorem exists_ofList {strings : List String}
    (h : ∀ s ∈ strings, (Text.units s).length ≤ maxLength ∧ place strings s ≤ maxOffset) :
    ∃ t, ofList strings = .ok t := by
  obtain ⟨es, hes⟩ := exists_entriesFrom_sorted (List.append_nil _).symm
    fun s hs => h s (mem_sortedStrings.1 hs)
  rw [List.map_nil, entriesFrom, Except.map_ok] at hes
  rw [ofList, hes]
  exact ⟨_, rfl⟩

/-- A string that is too long is refused if no smaller one is, and if these begin before the
limit. -/
theorem ofList_eq_error {strings before after : List String} {s : String}
    (hsplit : sortedStrings strings = before ++ s :: after)
    (h : ∀ r ∈ before, (Text.units r).length ≤ maxLength ∧ place strings r ≤ maxOffset)
    (hs : maxLength < (Text.units s).length) :
    ofList strings = .error (.stringTooLarge (Text.units s).length) := by
  obtain ⟨es, hes⟩ := exists_entriesFrom_sorted hsplit h
  rw [List.map_cons, entriesFrom, if_pos hs] at hes
  rw [ofList, hes]
  rfl

/-- Of the strings that are too long, one is the smallest: those before it are short, and the other
long ones come after it. -/
theorem exists_smallest_long {strings : List String}
    (h : ∃ s ∈ strings, maxLength < (Text.units s).length) : ∃ before s after,
      sortedStrings strings = before ++ s :: after ∧ maxLength < (Text.units s).length ∧
      (∀ r ∈ before, (Text.units r).length ≤ maxLength ∧ Text.units r < Text.units s) ∧
      ∀ r ∈ strings, maxLength < (Text.units r).length → Text.units s ≤ Text.units r := by
  obtain ⟨s, hs⟩ : ∃ s, (sortedStrings strings).find?
      (fun r => decide (maxLength < (Text.units r).length)) = some s := by
    rw [← Option.isSome_iff_exists, List.find?_isSome]
    obtain ⟨s, hs, hlong⟩ := h
    exact ⟨s, mem_sortedStrings.2 hs, decide_eq_true hlong⟩
  obtain ⟨hlong, before, after, hsplit, hbefore⟩ := List.find?_eq_some_iff_append.1 hs
  have hsorted := pairwise_sortedStrings strings
  rw [hsplit, List.pairwise_append, List.pairwise_cons] at hsorted
  obtain ⟨-, ⟨hafter, -⟩, hacross⟩ := hsorted
  have hshort : ∀ r ∈ before, (Text.units r).length ≤ maxLength := fun r hr => by
    simpa using hbefore r hr
  refine ⟨before, s, after, hsplit, of_decide_eq_true hlong,
    fun r hr => ⟨hshort r hr, hacross r hr s List.mem_cons_self⟩, fun r hr hrlong => ?_⟩
  rw [← mem_sortedStrings, hsplit, List.mem_append, List.mem_cons] at hr
  rcases hr with hr | rfl | hr
  · exact absurd hrlong (Nat.not_lt.2 (hshort r hr))
  · exact le_rfl
  · exact (hafter r hr).le

theorem string_eq_error {t : SortedTable} {id : Nat} (hid : t.size ≤ id) :
    t.string id = .error (.indexOutOfBounds id t.size) := by
  have hget : t.entries.get id = .error (.indexOutOfBounds id t.size) :=
    PlainArray.get_eq_error hid
  rw [string, unitsAt, hget]
  rfl

/-- Only the identifiers of its strings lead to strings. -/
theorem Stores.toOption_string {t : SortedTable} {strings : List String} (h : t.Stores strings)
    (id : Nat) : (t.string id).toOption = strings[id]? := by
  by_cases hid : id < strings.length
  · rw [List.getElem?_eq_getElem hid, h.string_eq_ok (List.getElem?_eq_getElem hid)]
    rfl
  · rw [List.getElem?_eq_none (Nat.not_lt.1 hid), string_eq_error (by rw [h.size_eq]; omega)]
    rfl

/-- **A sorted table numbers its strings in the order of their code units.**  Of strings that have
at most 255 code units each and begin within 24 bits a table is built, in which the identifier of a
string is the number of distinct strings before it, other strings have none, and an identifier leads
back to its string.  If some string is longer, and the strings before the smallest such one begin
within 24 bits, the building fails with the length of this one. -/
theorem ofList_numbers_strings (strings : List String) :
    ((∀ s ∈ strings, (Text.units s).length ≤ 255) → (∀ s ∈ strings, place strings s < 2 ^ 24) →
      ∃ t, ofList strings = .ok t ∧ t.size = strings.toFinset.card ∧
        (∀ s id, t.identifier? s = some id ↔ s ∈ strings ∧
          id = (strings.toFinset.filter fun r => Text.units r < Text.units s).card) ∧
        (∀ id < t.size, ∃ s, t.string id = .ok s ∧ t.identifier? s = some id) ∧
        (∀ s id, t.identifier? s = some id → t.string id = .ok s) ∧
        ∀ id, t.size ≤ id → t.string id = .error (.indexOutOfBounds id t.size)) ∧
    ((∃ s ∈ strings, 255 < (Text.units s).length) →
      ∃ s ∈ strings, 255 < (Text.units s).length ∧
        (∀ r ∈ strings, 255 < (Text.units r).length → Text.units s ≤ Text.units r) ∧
        ((∀ r ∈ strings, Text.units r < Text.units s → place strings r < 2 ^ 24) →
          ofList strings = .error (.stringTooLarge (Text.units s).length))) := by
  constructor
  · intro hshort hplaces
    obtain ⟨t, ht⟩ := exists_ofList fun s hs => ⟨hshort s hs, Nat.le_of_lt_succ (hplaces s hs)⟩
    have hstores := stores_of_ofList ht
    have hrank {s : String} (hs : s ∈ strings) : t.identifier? s =
        some (strings.toFinset.filter fun r => Text.units r < Text.units s).card := by
      rw [hstores.identifier?_eq_countP (mem_sortedStrings.2 hs),
        card_filter_toFinset hstores.nodup fun _ => mem_sortedStrings]
    refine ⟨t, ht, ?_, fun s id => ⟨fun hid => ?_, ?_⟩, fun id hid => ?_,
      fun s id => hstores.numbers.name_of_find?, fun id => string_eq_error⟩
    · have hcard := card_filter_toFinset hstores.nodup (fun _ => mem_sortedStrings) fun _ => True
      simpa [hstores.size_eq] using hcard.symm
    · have hs : s ∈ strings := mem_sortedStrings.1 (hstores.numbers.mem_iff.2 ⟨id, hid⟩)
      exact ⟨hs, Option.some.inj (hid.symm.trans (hrank hs))⟩
    · rintro ⟨hs, rfl⟩
      exact hrank hs
    · rw [hstores.size_eq] at hid
      have hget := List.getElem?_eq_getElem hid
      exact ⟨_, hstores.string_eq_ok hget, hstores.identifier?_eq_some_iff.2 hget⟩
  · intro hlong
    obtain ⟨before, s, after, hsplit, hs, hbefore, hleast⟩ := exists_smallest_long hlong
    have hmem {r : String} (hr : r ∈ before ++ s :: after) : r ∈ strings := by
      rwa [← mem_sortedStrings, hsplit]
    refine ⟨s, hmem (by simp), hs, hleast, fun hplaces => ?_⟩
    apply ofList_eq_error hsplit ?_ hs
    intro r hr
    obtain ⟨hrshort, hrs⟩ := hbefore r hr
    have hrmem := hmem (List.mem_append_left _ hr)
    exact ⟨hrshort, Nat.le_of_lt_succ (hplaces r hrmem hrs)⟩

/-- A string of a number of equal letters. -/
def letters (n : Nat) : String := String.ofList (List.replicate n 'x')

theorem units_letters (n : Nat) : Text.units (letters n) = List.replicate n 120 := by
  have hx : Text.Units.ofChar 'x' = [120] := by decide
  rw [Text.units, letters, String.toList_ofList, List.flatMap_replicate, hx,
    List.flatten_replicate_singleton]

theorem ofList_numbers_strings_surrogates :
    (∀ s ∈ ["\uFFFF", "b", "😀", "b"], (Text.units s).length ≤ 255) ∧
    (∀ s ∈ ["\uFFFF", "b", "😀", "b"], place ["\uFFFF", "b", "😀", "b"] s < 2 ^ 24) ∧
    (∃ t, ofList ["\uFFFF", "b", "😀", "b"] = .ok t ∧ t.size = 3 ∧
      t.identifier? "😀" = some 1 ∧ t.string 2 = .ok "\uFFFF" ∧
      t.string 3 = .error (.indexOutOfBounds 3 3)) ∧
    ofList ["y", letters 256, "a"] = .error (.stringTooLarge 256) := by
  have hshort : ∀ s ∈ ["\uFFFF", "b", "😀", "b"], (Text.units s).length ≤ 255 := by decide +kernel
  have hplaces : ∀ s ∈ ["\uFFFF", "b", "😀", "b"],
      place ["\uFFFF", "b", "😀", "b"] s < 2 ^ 24 := by decide +kernel
  obtain ⟨t, ht, hsize, hrank, -, hstring, hbeyond⟩ := (ofList_numbers_strings _).1 hshort hplaces
  have hthree : t.size = 3 := hsize.trans (by decide +kernel)
  refine ⟨hshort, hplaces, ⟨t, ht, hthree, ?_, ?_, ?_⟩, ?_⟩
  · exact (hrank "😀" 1).2 (by decide +kernel)
  · exact hstring "\uFFFF" 2 ((hrank "\uFFFF" 2).2 (by decide +kernel))
  · have hbeyond := hbeyond 3 hthree.le
    rwa [hthree] at hbeyond
  · have hlength : (Text.units (letters 256)).length = 256 := by
      rw [units_letters, List.length_replicate]
    obtain ⟨s, hs, hlong, -, hfail⟩ := (ofList_numbers_strings ["y", letters 256, "a"]).2
      ⟨letters 256, by simp, by rw [hlength]; decide⟩
    -- only the string of 256 letters is long
    obtain rfl : s = letters 256 := by
      rcases List.mem_cons.1 hs with rfl | hs
      · exact absurd hlong (by decide +kernel)
      rcases List.mem_cons.1 hs with rfl | hs
      · rfl
      · obtain rfl := List.mem_singleton.1 hs
        exact absurd hlong (by decide +kernel)
    rw [hlength] at hfail
    apply hfail
    intro r hr hless
    -- no string comes before the one that comes before it
    refine (Finset.sum_eq_zero fun t ht => ?_).trans_lt (by decide)
    rw [Finset.mem_filter, List.mem_toFinset] at ht
    simp only [List.mem_cons, List.not_mem_nil, or_false] at hr ht
    rcases hr with rfl | rfl | rfl
    · exact absurd hless (by rw [units_letters]; decide +kernel)
    · exact absurd hless (lt_irrefl _)
    · rcases ht with ⟨rfl | rfl | rfl, ht⟩
      · exact absurd ht (by decide +kernel)
      · exact absurd ht (by rw [units_letters]; decide +kernel)
      · exact absurd ht (lt_irrefl _)

end SortedTable

end Paradigm
