import Mathlib
import Paradigm.Text.Units

/-!
# Reading back UTF-16

The code units of a text are well formed, and reading them gives the text back.  Texts with equal
units are therefore equal.

## Main results

* `Units.decode?_units`: reading undoes writing
* `units_injective`: a text is determined by its units
* `eq_of_isSuffix`: an end of a text is determined by the number of its units
-/

namespace Paradigm.Text

namespace Units

theorem toNat_lt_or_lt (c : Char) :
    c.toNat < 0xD800 ∨ (0xDFFF < c.toNat ∧ c.toNat < 0x110000) := c.valid

theorem lt_of_mem_ofChar {c : Char} {u : Nat} (h : u ∈ ofChar c) : u < 65536 := by
  have hc := toNat_lt_or_lt c
  unfold ofChar at h
  split at h
  · rw [List.mem_singleton] at h
    omega
  · simp only [List.mem_cons, List.not_mem_nil, or_false] at h
    omega

/-- A unit outside the surrogates stands for a character of its own. -/
theorem decode?_cons {u : Nat} (hhigh : isHigh u = false) (hlow : isLow u = false)
    (us : List Nat) : decode? (u :: us) = (decode? us).map (Char.ofNat u :: ·) := by
  cases us with
  | nil => simp [decode?, hhigh, hlow]
  | cons v vs => simp [decode?, hhigh, hlow]

theorem decode?_pair {u v : Nat} (hhigh : isHigh u = true) (hlow : isLow v = true)
    (us : List Nat) : decode? (u :: v :: us) = (decode? us).map (ofPair u v :: ·) := by
  simp [decode?, hhigh, hlow]

theorem decode?_ofChar_append (c : Char) (us : List Nat) :
    decode? (ofChar c ++ us) = (decode? us).map (c :: ·) := by
  have hc := toNat_lt_or_lt c
  unfold ofChar
  split
  -- one unit, which is no surrogate
  · rw [List.singleton_append, decode?_cons, Char.ofNat_toNat]
    · simp only [isHigh, Bool.and_eq_false_iff, decide_eq_false_iff_not]
      omega
    · simp only [isLow, Bool.and_eq_false_iff, decide_eq_false_iff_not]
      omega
  -- a pair of surrogates
  · rw [List.cons_append, List.singleton_append, decode?_pair]
    · have hpair : ofPair (0xD800 + (c.toNat - 0x10000) / 0x400)
          (0xDC00 + (c.toNat - 0x10000) % 0x400) = c := by
        rw [ofPair, show 0x10000 + (0xD800 + (c.toNat - 0x10000) / 0x400 - 0xD800) * 0x400 +
          (0xDC00 + (c.toNat - 0x10000) % 0x400 - 0xDC00) = c.toNat by omega, Char.ofNat_toNat]
      rw [hpair]
    · simp only [isHigh, Bool.and_eq_true, decide_eq_true_eq]
      omega
    · simp only [isLow, Bool.and_eq_true, decide_eq_true_eq]
      omega

/-- The units of characters are read as these, whatever follows them. -/
theorem decode?_flatMap_ofChar_append (cs : List Char) (us : List Nat) :
    decode? (cs.flatMap ofChar ++ us) = (decode? us).map (cs ++ ·) := by
  induction cs with
  | nil => exact Option.map_id'.symm
  | cons c cs ih =>
    rw [List.flatMap_cons, List.append_assoc, decode?_ofChar_append, ih, Option.map_map]
    rfl

/-- Reading undoes writing. -/
theorem decode?_units (s : String) : decode? (units s) = some s.toList := by
  have happend := decode?_flatMap_ofChar_append s.toList []
  rwa [decode?, Option.map_some, List.append_nil, List.append_nil] at happend

end Units

theorem lt_of_mem_units {s : String} {u : Nat} (h : u ∈ units s) : u < 65536 := by
  obtain ⟨c, -, hu⟩ := List.mem_flatMap.1 h
  exact Units.lt_of_mem_ofChar hu

/-- A text is determined by its units. -/
theorem units_injective : Function.Injective units := by
  intro s t h
  have hst := Units.decode?_units s
  rw [h, Units.decode?_units] at hst
  exact (String.toList_inj.1 (Option.some.inj hst)).symm

@[simp] theorem units_inj {s t : String} : units s = units t ↔ s = t := units_injective.eq_iff

theorem units_isSuffix {s t : String} (h : s.toList <:+ t.toList) : units s <:+ units t := by
  obtain ⟨front, h⟩ := h
  refine ⟨front.flatMap Units.ofChar, ?_⟩
  rw [units, units, ← h, List.flatMap_append]

/-- A text has at most one end of each length. -/
theorem eq_of_isSuffix {s t word : String} (hs : s.toList <:+ word.toList)
    (ht : t.toList <:+ word.toList) (h : Units.length s = Units.length t) : s = t := by
  apply units_injective
  have hsuffix := List.suffix_of_suffix_length_le (units_isSuffix hs) (units_isSuffix ht) h.le
  exact hsuffix.eq_of_length h

/-- An end of a text that has no more units than another one is an end of this one. -/
theorem isSuffix_of_length_le {s t word : String} (hs : s.toList <:+ word.toList)
    (ht : t.toList <:+ word.toList) (h : Units.length s ≤ Units.length t) :
    s.toList <:+ t.toList := by
  rcases List.suffix_or_suffix_of_suffix hs ht with hst | hts
  · exact hst
  · have hlength := h.antisymm (units_isSuffix hts).length_le
    rw [eq_of_isSuffix hs ht hlength]

end Paradigm.Text
