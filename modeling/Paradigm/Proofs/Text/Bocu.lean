import Mathlib
import Paradigm.Text.Bocu

/-!
# Reading back binary ordered compression

Every difference between a character and an anchor lies in one band, and its bytes lead back to the
band and to its offset there.  Reading therefore undoes writing, character by character.

## Main results

* `bandOf_eq`, `bandOf_spec`: the band of a difference
* `bandOfLead_add`: a lead byte names its band
* `exists_writeChar_eq`: the lead byte and the trail bytes of a character
* `decodeFrom_writeChar`: reading undoes writing one character
* `decode?_encode`: reading undoes writing
* `decode?_intercalate`: texts that are joined by reset bytes are read as one
* `length_encode`, `charLength_eq`: the length of an encoding
-/

namespace Paradigm.Text.Bocu

/-! ## Digits -/

theorem trailDigit?_trailByte : ∀ d < base, trailDigit? (trailByte d) = some d := by
  decide +kernel

@[simp] theorem length_digits (n v : Nat) : (digits n v).length = n := by
  induction n generalizing v with
  | zero => rfl
  | succ n ih => simp [digits, ih]

theorem lt_of_mem_digits {n v d : Nat} (h : d ∈ digits n v) : d < base := by
  induction n generalizing v with
  | zero => cases h
  | succ n ih =>
    rw [digits, List.mem_append, List.mem_singleton] at h
    rcases h with h | rfl
    · exact ih h
    · exact Nat.mod_lt _ (by decide)

/-- The digits stand for the lower part of the number. -/
theorem ofDigits_digits (n v : Nat) : ofDigits (digits n v) = v % base ^ n := by
  induction n generalizing v with
  | zero => rw [Nat.pow_zero, Nat.mod_one]; rfl
  | succ n ih =>
    -- the last digit is the remainder
    have hstep :
        ofDigits (digits (n + 1) v) = ofDigits (digits n (v / base)) * base + v % base := by
      rw [digits, ofDigits, List.foldl_append]
      rfl
    rw [hstep, ih, Nat.pow_succ', Nat.mod_mul, Nat.mul_comm base, Nat.add_comm]

theorem mapM_trailDigit? {ds : List Nat} (h : ∀ d ∈ ds, d < base) :
    (ds.map trailByte).mapM trailDigit? = some ds := by
  induction ds with
  | nil => rfl
  | cons d ds ih =>
    have hd := trailDigit?_trailByte d (h d List.mem_cons_self)
    have hds := ih fun e he => h e (List.mem_cons_of_mem d he)
    rw [List.map_cons, List.mapM_cons, hd, hds]
    rfl

/-! ## Bands -/

/-- The bands lie one after the other. -/
theorem bandOf_eq (diff : Int) : bandOf diff =
    if diff < -187660 then lowest
    else if diff < -10513 then ⟨0x22, 3, 2, -187660⟩
    else if diff < -64 then ⟨0x25, 43, 1, -10513⟩
    else if diff < 64 then ⟨0x50, 128, 0, -64⟩
    else if diff < 10513 then ⟨0xD0, 43, 1, 64⟩
    else if diff < 187660 then ⟨0xFB, 3, 2, 10513⟩
    else highest := by
  have hstops : bands.map Band.stop =
      [-187660, -10513, -64, 64, 10513, 187660, 14536567] := by decide
  simp only [bands, inner, List.cons_append, List.nil_append, List.map_cons, List.map_nil,
    List.cons.injEq, and_true] at hstops
  obtain ⟨h₁, h₂, h₃, h₄, h₅, h₆, h₇⟩ := hstops
  simp only [bandOf, bands, inner, List.cons_append, List.nil_append, List.find?_cons,
    List.find?_nil, h₁, h₂, h₃, h₄, h₅, h₆, h₇]
  -- the differences beyond the last band are given to it too
  by_cases hlast : diff < 14536567
  · simp only [hlast]
    split_ifs <;> simp [*]
  · simp only [hlast]
    split_ifs <;> simp [*]

/-- A difference of code points lies in its band. -/
theorem bandOf_spec {diff : Int} (hlow : -0x110000 ≤ diff) (hhigh : diff ≤ 0x110000) :
    bandOf diff ∈ bands ∧ (bandOf diff).start ≤ diff ∧ diff < (bandOf diff).stop := by
  rw [bandOf_eq]
  split_ifs
  all_goals
    refine ⟨by decide, ?_, ?_⟩
    · simp only [lowest, highest]
      omega
    · simp only [Band.stop, Band.weight, base, lowest, highest]
      norm_num
      omega

/-- A lead byte names its band. -/
theorem bandOfLead_add : ∀ b ∈ bands, ∀ k < b.leads,
    bandOfLead (b.lead + k) = b ∧ 0x20 < b.lead + k ∧ b.lead + k < 0xFF := by
  decide +kernel

/-- The highest digit of a difference is one of the lead bytes of its band. -/
theorem Band.div_weight_lt {b : Band} {diff : Int} (hstart : b.start ≤ diff)
    (hstop : diff < b.stop) : (diff - b.start).toNat / b.weight < b.leads := by
  apply Nat.div_lt_of_lt_mul
  rw [Nat.mul_comm]
  unfold Band.stop at hstop
  omega

/-- The digits of a difference lead back to it. -/
theorem Band.read_write (b : Band) {diff : Int} (h : b.start ≤ diff) :
    b.read (b.lead + (diff - b.start).toNat / b.weight)
      (digits b.trails (diff - b.start).toNat) = diff := by
  have hdigits : (diff - b.start).toNat / b.weight * b.weight +
      (diff - b.start).toNat % base ^ b.trails = (diff - b.start).toNat :=
    Nat.div_add_mod' _ _
  rw [Band.read, ofDigits_digits, Nat.add_sub_cancel_left, hdigits]
  omega

/-! ## Characters -/

theorem toChar?_toNat (c : Char) : toChar? (c.toNat : Int) = some c := by
  have hvalid : (c.toNat : Int).toNat.isValidChar := c.valid
  rw [toChar?, dif_pos ⟨Int.natCast_nonneg _, hvalid⟩, Option.some_inj]
  exact Char.ext rfl

theorem blockAnchor_le {code : Nat} (h : code < 0x110000) : blockAnchor code ≤ 0x110000 := by
  unfold blockAnchor
  split_ifs <;> omega

theorem toNat_lt (c : Char) : c.toNat < 0x110000 := by
  rcases c.valid with hlow | ⟨-, hhigh⟩
  · exact hlow.trans (by norm_num)
  · exact hhigh

/-- Anchors are in the range of code points. -/
theorem anchorAfter_le {anchor : Nat} (h : anchor ≤ 0x110000) (c : Char) :
    anchorAfter anchor c.toNat ≤ 0x110000 := by
  unfold anchorAfter
  split_ifs
  · exact h
  · decide
  · exact blockAnchor_le (toNat_lt c)

/-- A lead byte is read with the trail bytes of its band. -/
theorem decodeFrom_lead {anchor : Nat} {lead : UInt8} (hcontrol : ¬ lead ≤ 0x20)
    (hreset : lead ≠ reset) {ds : List Nat} (hds : ∀ d ∈ ds, d < base)
    (hlen : ds.length = (bandOfLead lead.toNat).trails) (rest : List UInt8) :
    decodeFrom anchor (lead :: (ds.map trailByte ++ rest)) =
      toChar? (anchor + (bandOfLead lead.toNat).read lead.toNat ds) >>= fun c =>
        (decodeFrom (blockAnchor c.toNat) rest).map (c :: ·) := by
  have hlen' : (ds.map trailByte).length = (bandOfLead lead.toNat).trails := by simpa using hlen
  have hlong : ¬ (ds.map trailByte ++ rest).length < (bandOfLead lead.toNat).trails := by
    rw [List.length_append, hlen']
    omega
  rw [decodeFrom, if_neg hcontrol, if_neg hreset]
  simp only [if_neg hlong, List.take_left' hlen', List.drop_left' hlen', mapM_trailDigit? hds]
  simp [Option.map_eq_bind]

/-- A lead byte of a band is no control and no reset. -/
theorem leadByte_spec {b : Band} (hmem : b ∈ bands) {k : Nat} (hk : k < b.leads) :
    (UInt8.ofNat (b.lead + k)).toNat = b.lead + k ∧ ¬ UInt8.ofNat (b.lead + k) ≤ 0x20 ∧
      UInt8.ofNat (b.lead + k) ≠ reset := by
  obtain ⟨-, hlow, hhigh⟩ := bandOfLead_add b hmem k hk
  have hbyte : (UInt8.ofNat (b.lead + k)).toNat = b.lead + k :=
    UInt8.toNat_ofNat_of_lt' (Nat.lt_trans hhigh (by decide))
  refine ⟨hbyte, ?_, ?_⟩
  · rw [UInt8.le_iff_toNat_le, hbyte]
    exact Nat.not_le_of_lt hlow
  · intro h
    rw [h] at hbyte
    exact Nat.ne_of_lt hhigh hbyte.symm

/-- A control character or a space stands for itself. -/
theorem decodeFrom_control {anchor : Nat} {c : Char} (hcontrol : c.toNat ≤ 0x20)
    (rest : List UInt8) :
    decodeFrom anchor (writeChar anchor c.toNat ++ rest) =
      (decodeFrom (anchorAfter anchor c.toNat) rest).map (c :: ·) := by
  have hbyte : (UInt8.ofNat c.toNat).toNat = c.toNat :=
    UInt8.toNat_ofNat_of_lt' (Nat.lt_of_le_of_lt hcontrol (by decide))
  have hle : UInt8.ofNat c.toNat ≤ 0x20 := by
    rw [UInt8.le_iff_toNat_le, hbyte]
    exact hcontrol
  rw [writeChar, if_pos hcontrol, List.singleton_append, decodeFrom, if_pos hle, hbyte,
    Char.ofNat_toNat]

/-- Any other character is written as a lead byte and the trail bytes that belong to it, which lead
back to the character. -/
theorem exists_writeChar_eq {anchor : Nat} (hanchor : anchor ≤ 0x110000) {c : Char}
    (hcontrol : ¬ c.toNat ≤ 0x20) : ∃ (lead : UInt8) (ds : List Nat), ¬ lead ≤ 0x20 ∧
      lead ≠ reset ∧ (∀ d ∈ ds, d < base) ∧ ds.length = (bandOfLead lead.toNat).trails ∧
      writeChar anchor c.toNat = lead :: ds.map trailByte ∧
      (anchor : Int) + (bandOfLead lead.toNat).read lead.toNat ds = c.toNat := by
  have hc := toNat_lt c
  have hlow : -0x110000 ≤ (c.toNat : Int) - anchor := by omega
  have hhigh : (c.toNat : Int) - anchor ≤ 0x110000 := by omega
  obtain ⟨hmem, hstart, hstop⟩ := bandOf_spec hlow hhigh
  obtain ⟨b, hb⟩ : ∃ b, bandOf ((c.toNat : Int) - anchor) = b := ⟨_, rfl⟩
  rw [hb] at hmem hstart hstop
  obtain ⟨v, hv⟩ : ∃ v, ((c.toNat : Int) - anchor - b.start).toNat = v := ⟨_, rfl⟩
  have hlead : v / b.weight < b.leads := hv ▸ Band.div_weight_lt hstart hstop
  obtain ⟨hband, -, -⟩ := bandOfLead_add b hmem _ hlead
  obtain ⟨hbyte, hnotcontrol, hnotreset⟩ := leadByte_spec hmem hlead
  refine ⟨UInt8.ofNat (b.lead + v / b.weight), digits b.trails v, hnotcontrol, hnotreset,
    fun d hd => lt_of_mem_digits hd, ?_, ?_, ?_⟩
  · rw [hbyte, hband, length_digits]
  · rw [← hv, ← hb, writeChar, if_neg hcontrol]
    rfl
  · rw [hbyte, hband, ← hv, Band.read_write b hstart]
    omega

/-- Reading undoes writing one character, and goes on under the anchor that it leaves behind. -/
theorem decodeFrom_writeChar {anchor : Nat} (hanchor : anchor ≤ 0x110000) (c : Char)
    (rest : List UInt8) :
    decodeFrom anchor (writeChar anchor c.toNat ++ rest) =
      (decodeFrom (anchorAfter anchor c.toNat) rest).map (c :: ·) := by
  by_cases hcontrol : c.toNat ≤ 0x20
  · exact decodeFrom_control hcontrol rest
  -- any other character is written by its difference to the anchor
  · obtain ⟨lead, ds, hnotcontrol, hnotreset, hds, hlen, hwrite, hread⟩ :=
      exists_writeChar_eq hanchor hcontrol
    have hanchorAfter : anchorAfter anchor c.toNat = blockAnchor c.toNat := by
      rw [anchorAfter, if_neg (by omega), if_neg (by omega)]
    rw [hwrite, List.cons_append, decodeFrom_lead hnotcontrol hnotreset hds hlen, hread,
      toChar?_toNat, hanchorAfter]
    rfl

/-! ## Texts -/

/-- The anchor that characters leave behind. -/
def anchorAfterAll (anchor : Nat) (cs : List Char) : Nat :=
  cs.foldl (fun anchor c => anchorAfter anchor c.toNat) anchor

theorem anchorAfterAll_cons (anchor : Nat) (c : Char) (cs : List Char) :
    anchorAfterAll anchor (c :: cs) = anchorAfterAll (anchorAfter anchor c.toNat) cs := rfl

theorem encodeFrom_append (anchor : Nat) (cs ds : List Char) :
    encodeFrom anchor (cs ++ ds) =
      encodeFrom anchor cs ++ encodeFrom (anchorAfterAll anchor cs) ds := by
  induction cs generalizing anchor with
  | nil => rfl
  | cons c cs ih =>
    rw [List.cons_append, encodeFrom, encodeFrom, ih, List.append_assoc, anchorAfterAll_cons]

/-- Reading undoes writing, and what follows is read under the anchor that was left behind. -/
theorem decodeFrom_encodeFrom_append {anchor : Nat} (hanchor : anchor ≤ 0x110000)
    (cs : List Char) (rest : List UInt8) :
    decodeFrom anchor (encodeFrom anchor cs ++ rest) =
      (decodeFrom (anchorAfterAll anchor cs) rest).map (cs ++ ·) := by
  induction cs generalizing anchor with
  | nil => exact Option.map_id'.symm
  | cons c cs ih =>
    rw [encodeFrom, List.append_assoc, decodeFrom_writeChar hanchor,
      ih (anchorAfter_le hanchor c), Option.map_map, anchorAfterAll_cons]
    rfl

theorem decodeFrom_encodeFrom {anchor : Nat} (hanchor : anchor ≤ 0x110000) (cs : List Char) :
    decodeFrom anchor (encodeFrom anchor cs) = some cs := by
  have happend := decodeFrom_encodeFrom_append hanchor cs []
  rwa [decodeFrom, Option.map_some, List.append_nil, List.append_nil] at happend

/-- Reading undoes writing. -/
theorem decode?_encode (s : String) : decode? (encode s) = some s := by
  rw [decode?, encode, decodeFrom_encodeFrom (by decide), Option.map_some, String.ofList_toList]

/-- The reset byte restores the first anchor. -/
theorem decodeFrom_reset (anchor : Nat) (rest : List UInt8) :
    decodeFrom anchor (reset :: rest) = decodeFrom firstAnchor rest := by
  have hcontrol : ¬ reset ≤ 0x20 := by decide
  rw [decodeFrom, if_neg hcontrol, if_pos rfl]

theorem decodeFrom_intercalate (ss : List String) :
    decodeFrom firstAnchor ([reset].intercalate (ss.map encode)) =
      some (ss.flatMap String.toList) := by
  induction ss with
  | nil => rw [List.map_nil, List.intercalate_nil, decodeFrom, List.flatMap_nil]
  | cons s ss ih =>
    cases ss with
    | nil =>
      rw [List.map_singleton, List.intercalate_singleton, encode,
        decodeFrom_encodeFrom (by decide), List.flatMap_singleton]
    -- the reset byte after a text undoes what the text did to the anchor
    | cons t ss =>
      rw [List.map_cons, List.map_cons, List.intercalate_cons_cons, ← List.map_cons,
        List.append_assoc, encode, decodeFrom_encodeFrom_append (by decide),
        List.singleton_append, decodeFrom_reset, ih, Option.map_some, ← List.flatMap_cons]

/-- Texts that are joined by reset bytes are read as one. -/
theorem decode?_intercalate (ss : List String) :
    decode? ([reset].intercalate (ss.map encode)) = some (String.join ss) := by
  rw [decode?, decodeFrom_intercalate, Option.map_some, ← String.toList_join,
    String.ofList_toList]

/-! ## Lengths -/

theorem Band.length_write (b : Band) (diff : Int) : (b.write diff).length = b.trails + 1 := by
  rw [Band.write, List.length_cons, List.length_map, length_digits]

theorem length_writeChar (anchor code : Nat) :
    (writeChar anchor code).length = charLength anchor code := by
  unfold writeChar charLength
  split
  · rfl
  · exact Band.length_write _ _

theorem length_encodeFrom (anchor : Nat) (cs : List Char) :
    (encodeFrom anchor cs).length = lengthFrom anchor cs := by
  induction cs generalizing anchor with
  | nil => rfl
  | cons c cs ih => rw [encodeFrom, List.length_append, length_writeChar, ih, lengthFrom]

/-- The length that is told for a text is that of its bytes. -/
theorem length_encode (s : String) : (encode s).length = encodedLength s :=
  length_encodeFrom _ _

/-- The number of bytes of a character follows from how far it is from the anchor. -/
theorem charLength_eq (anchor code : Nat) : charLength anchor code =
    if code ≤ 0x20 then 1
    else if -64 ≤ (code : Int) - anchor ∧ (code : Int) - anchor ≤ 63 then 1
    else if -10513 ≤ (code : Int) - anchor ∧ (code : Int) - anchor ≤ 10512 then 2
    else if -187660 ≤ (code : Int) - anchor ∧ (code : Int) - anchor ≤ 187659 then 3
    else 4 := by
  unfold charLength
  rw [bandOf_eq]
  grind [lowest, highest]

end Paradigm.Text.Bocu
