import Mathlib
import Paradigm.Proofs.Text.Encoding

/-!
# Cut encodings

The lead byte of a character tells how many trail bytes belong to it.  The bytes of a text that is
cut between two characters are therefore the encoding of the characters before the cut, and a cut
within a character is found out.

## Main results

* `decodeFrom_take_writeChar`: a character that is cut off is refused
* `take_encodeFrom`: a cut between two characters gives an encoding
* `decodeFrom_take_eq_none`: a cut within a character is refused
* `decode_take_encode`: every cut of an encoding
-/

namespace Paradigm.Text.Bocu

/-! ## Characters -/

/-- A character that is cut off is refused: its trail bytes are missed. -/
theorem decodeFrom_take_writeChar {anchor : Nat} (hanchor : anchor ≤ 0x110000) (c : Char) {k : Nat}
    (hpos : 0 < k) (hlt : k < charLength anchor c.toNat) :
    decodeFrom anchor ((writeChar anchor c.toNat).take k) = none := by
  rw [← length_writeChar] at hlt
  by_cases hcontrol : c.toNat ≤ 0x20
  -- a control character has a single byte
  · rw [writeChar, if_pos hcontrol, List.length_singleton] at hlt
    omega
  · obtain ⟨lead, ds, hnotcontrol, hnotreset, -, hlen, hwrite, -⟩ :=
      exists_writeChar_eq hanchor hcontrol
    rw [hwrite, List.length_cons, List.length_map, hlen] at hlt
    obtain ⟨k, rfl⟩ := Nat.exists_eq_succ_of_ne_zero hpos.ne'
    have hshort : ((ds.map trailByte).take k).length < (bandOfLead lead.toNat).trails :=
      (List.length_take_le k _).trans_lt (by omega)
    rw [hwrite, List.take_succ_cons, decodeFrom, if_neg hnotcontrol, if_neg hnotreset]
    exact if_pos hshort

/-! ## Texts -/

/-- A cut between two characters gives the encoding of the characters before it. -/
theorem take_encodeFrom {anchor : Nat} {ds cs : List Char} (h : ds <+: cs) :
    (encodeFrom anchor cs).take (lengthFrom anchor ds) = encodeFrom anchor ds := by
  obtain ⟨es, rfl⟩ := h
  rw [encodeFrom_append, ← length_encodeFrom, List.take_left]

/-- A cut within a character is refused, whatever stands before the character. -/
theorem decodeFrom_take_eq_none {anchor : Nat} (hanchor : anchor ≤ 0x110000) {cs : List Char}
    {n : Nat} (hn : n ≤ lengthFrom anchor cs) (hcut : ∀ ds, ds <+: cs → lengthFrom anchor ds ≠ n) :
    decodeFrom anchor ((encodeFrom anchor cs).take n) = none := by
  have hpos : 0 < n := Nat.pos_of_ne_zero (hcut [] List.nil_prefix).symm
  induction cs generalizing anchor n with
  | nil =>
    rw [lengthFrom] at hn
    omega
  | cons c cs ih =>
    have hlength := length_writeChar anchor c.toNat
    rw [encodeFrom]
    rcases Nat.lt_or_ge n (charLength anchor c.toNat) with hlt | hge
    -- the cut is in the first character
    · rw [List.take_append_of_le_length (by omega)]
      exact decodeFrom_take_writeChar hanchor c hpos hlt
    · obtain ⟨m, rfl⟩ := Nat.exists_eq_add_of_le hge
      have hrest : ∀ ds, ds <+: cs → lengthFrom (anchorAfter anchor c.toNat) ds ≠ m := by
        rintro ds hds rfl
        exact hcut (c :: ds) (List.cons_prefix_cons.2 ⟨rfl, hds⟩) rfl
      rw [lengthFrom, Nat.add_le_add_iff_left] at hn
      rw [← hlength, List.take_length_add_append, decodeFrom_writeChar hanchor,
        ih (anchorAfter_le hanchor c) hn hrest
          (Nat.pos_of_ne_zero (hrest [] List.nil_prefix).symm), Option.map_none]

/-- **A cut encoding is never read as a wrong string.**  The first bytes of the encoding of a string
are read as a beginning of the string if they are as many as it takes, of which there is one at
most, and they are malformed if no beginning takes as many bytes. -/
theorem decode_take_encode (s : String) {n : Nat} (hn : n ≤ (Encoding.bocu1.encode s).length) :
    (∀ t : String, t.toList <+: s.toList → n = Encoding.bocu1.encodedLength t →
      Encoding.bocu1.decode ((Encoding.bocu1.encode s).take n) = .ok t ∧
        ∀ t' : String, t'.toList <+: s.toList → n = Encoding.bocu1.encodedLength t' → t' = t) ∧
    ((∀ t : String, t.toList <+: s.toList → n ≠ Encoding.bocu1.encodedLength t) →
      Encoding.bocu1.decode ((Encoding.bocu1.encode s).take n) = .error .malformedString) := by
  have hread : ∀ t : String, t.toList <+: s.toList → n = Encoding.bocu1.encodedLength t →
      Encoding.bocu1.decode ((Encoding.bocu1.encode s).take n) = .ok t := by
    rintro t ht rfl
    have htake : (Encoding.bocu1.encode s).take (Encoding.bocu1.encodedLength t) =
        Encoding.bocu1.encode t := take_encodeFrom ht
    rw [htake, Encoding.decode_encode]
  refine ⟨fun t ht hlength => ⟨hread t ht hlength, fun t' ht' hlength' => ?_⟩, fun hcut => ?_⟩
  -- the same bytes are not read as two strings
  · have hsame := (hread t' ht' hlength').symm.trans (hread t ht hlength)
    exact Except.ok.inj hsame
  · have hchars : ∀ ds, ds <+: s.toList → lengthFrom firstAnchor ds ≠ n := by
      rintro ds hds rfl
      refine hcut (String.ofList ds) (by rwa [String.toList_ofList]) ?_
      show _ = lengthFrom firstAnchor (String.ofList ds).toList
      rw [String.toList_ofList]
    have hlength : n ≤ lengthFrom firstAnchor s.toList := by
      rwa [Encoding.length_encode] at hn
    have hnone : Encoding.bocu1.decode? ((Encoding.bocu1.encode s).take n) = none := by
      show (decodeFrom firstAnchor ((encodeFrom firstAnchor s.toList).take n)).map _ = none
      rw [decodeFrom_take_eq_none (by decide) hlength hchars, Option.map_none]
    rw [Encoding.decode, hnone]

/-- The last two characters take three bytes each, and a cut within them is malformed. -/
theorem decode_take_encode_jump :
    Encoding.bocu1.decode ((Encoding.bocu1.encode "a𐀀b").take 1) = .ok "a" ∧
      Encoding.bocu1.decode ((Encoding.bocu1.encode "a𐀀b").take 4) = .ok "a𐀀" ∧
      ∀ n ∈ [2, 3, 5, 6], n ≤ (Encoding.bocu1.encode "a𐀀b").length ∧
        Encoding.bocu1.decode ((Encoding.bocu1.encode "a𐀀b").take n) = .error .malformedString := by
  have hlength : (Encoding.bocu1.encode "a𐀀b").length = 7 := by decide +kernel
  refine ⟨?_, ?_, fun n hn => ?_⟩
  · exact ((decode_take_encode "a𐀀b" (by omega)).1 "a" (by decide) (by decide +kernel)).1
  · exact ((decode_take_encode "a𐀀b" (by omega)).1 "a𐀀" (by decide) (by decide +kernel)).1
  · have hle : n ≤ 6 := by
      simp only [List.mem_cons, List.not_mem_nil, or_false] at hn
      omega
    -- the beginnings of the text take none, one, four and seven bytes
    have hends : ∀ ds ∈ "a𐀀b".toList.inits, lengthFrom firstAnchor ds ∉ [2, 3, 5, 6] := by
      decide +kernel
    refine ⟨by omega, (decode_take_encode "a𐀀b" (by omega)).2 ?_⟩
    rintro t ht rfl
    exact hends t.toList ((List.mem_inits _ _).2 ht) hn

end Paradigm.Text.Bocu
