import Mathlib
import Paradigm.Proofs.ByteOrder
import Paradigm.Proofs.Text.Bocu

/-!
# Binary ordered compression keeps the order

Texts compare as their encodings do.  Two texts share a beginning, after which both go on under the
same anchor; the first characters in which they differ are written so that the bytes of the smaller
one come before those of the other, whatever follows.  The bands rise with the differences, the lead
bytes rise in a band, and trail bytes rise with their digits.

## Main results

* `before_digits`: the trail bytes of numbers with the same lead byte
* `before_write`: the bytes of differences
* `before_writeChar`: the bytes of characters under the same anchor
* `compare_encode`: the order of texts is that of their encodings
-/

namespace Paradigm.Text.Bocu

/-! ## Trail bytes -/

theorem trailByte_lt_succ : ∀ d < 242, trailByte d < trailByte (d + 1) := by decide +kernel

/-- Trail bytes rise with their digits, though they are not next to each other. -/
theorem trailByte_lt {d e : Nat} (hde : d < e) (he : e < base) : trailByte d < trailByte e := by
  induction e with
  | zero => exact absurd hde (Nat.not_lt_zero d)
  | succ e ih =>
    have hbase : base = 243 := rfl
    have hnext := trailByte_lt_succ e (by omega)
    rcases Nat.lt_or_eq_of_le (Nat.le_of_lt_succ hde) with hlt | rfl
    · exact UInt8.lt_trans (ih hlt (by omega)) hnext
    · exact hnext

/-- Of numbers that agree above their trail digits, the smaller one comes first. -/
theorem before_digits {n v w : Nat} (hvw : v < w) (hhigh : v / base ^ n = w / base ^ n) :
    Before ((digits n v).map trailByte) ((digits n w).map trailByte) := by
  induction n generalizing v w with
  | zero =>
    rw [Nat.pow_zero, Nat.div_one, Nat.div_one] at hhigh
    exact absurd hhigh hvw.ne
  | succ n ih =>
    rw [Nat.pow_succ', ← Nat.div_div_eq_div_mul, ← Nat.div_div_eq_div_mul] at hhigh
    simp only [digits, List.map_append, List.map_singleton]
    -- the digits before the last one differ, or the last ones do
    rcases Nat.lt_or_eq_of_le (Nat.div_le_div_right hvw.le : v / base ≤ w / base) with hlt | heq
    · exact (ih hlt hhigh).mono (List.prefix_append _ _) (List.prefix_append _ _)
    · rw [heq]
      have hv := Nat.div_add_mod v base
      have hw := Nat.div_add_mod w base
      rw [heq] at hv
      have hlast : v % base < w % base := by omega
      exact before_of_label_lt _ (trailByte_lt hlast (Nat.mod_lt w (by decide)))

/-! ## Differences -/

theorem pairwise_bands :
    bands.Pairwise fun b c => b.stop ≤ c.start ∧ b.lead + b.leads ≤ c.lead := by decide

/-- Of two bands, one lies below the other with its differences and with its lead bytes. -/
theorem bands_trichotomy {b c : Band} (hb : b ∈ bands) (hc : c ∈ bands) :
    b = c ∨ (b.stop ≤ c.start ∧ b.lead + b.leads ≤ c.lead) ∨
      (c.stop ≤ b.start ∧ c.lead + c.leads ≤ b.lead) := by
  obtain ⟨i, hi, rfl⟩ := List.mem_iff_getElem.1 hb
  obtain ⟨j, hj, rfl⟩ := List.mem_iff_getElem.1 hc
  have hpairwise := List.pairwise_iff_getElem.1 pairwise_bands
  rcases Nat.lt_trichotomy i j with hlt | rfl | hgt
  · exact .inr (.inl (hpairwise i j hi hj hlt))
  · exact .inl rfl
  · exact .inr (.inr (hpairwise j i hj hi hgt))

theorem leadByte_lt {b c : Band} (hb : b ∈ bands) (hc : c ∈ bands) {k l : Nat} (hk : k < b.leads)
    (hl : l < c.leads) (h : b.lead + k < c.lead + l) :
    UInt8.ofNat (b.lead + k) < UInt8.ofNat (c.lead + l) := by
  rw [UInt8.lt_iff_toNat_lt, (leadByte_spec hb hk).1, (leadByte_spec hc hl).1]
  exact h

/-- The bytes of the smaller of two differences in a band come first. -/
theorem Band.before_write {b : Band} (hb : b ∈ bands) {diff diff' : Int} (hstart : b.start ≤ diff)
    (hlt : diff < diff') (hstop : diff' < b.stop) : Before (b.write diff) (b.write diff') := by
  have hlead := div_weight_lt hstart (hlt.trans hstop)
  have hlead' := div_weight_lt (hstart.trans hlt.le) hstop
  have hv : (diff - b.start).toNat < (diff' - b.start).toNat := by omega
  have hle : (diff - b.start).toNat / b.weight ≤ (diff' - b.start).toNat / b.weight :=
    Nat.div_le_div_right hv.le
  unfold write
  -- the lead bytes differ, or the trail bytes decide
  rcases Nat.lt_or_eq_of_le hle with hless | heq
  · exact before_cons_of_lt (leadByte_lt hb hb hlead hlead' (by omega)) _ _
  · dsimp only
    rw [heq]
    exact (before_digits hv heq).cons _

/-- The bytes of the smaller of two differences come first. -/
theorem before_write {diff diff' : Int} (hlow : -0x110000 ≤ diff) (hlt : diff < diff')
    (hhigh : diff' ≤ 0x110000) :
    Before ((bandOf diff).write diff) ((bandOf diff').write diff') := by
  obtain ⟨hmem, hstart, hstop⟩ := bandOf_spec hlow (hlt.le.trans hhigh)
  obtain ⟨hmem', hstart', hstop'⟩ := bandOf_spec (hlow.trans hlt.le) hhigh
  rcases bands_trichotomy hmem hmem' with heq | ⟨-, hleads⟩ | ⟨hdiffs, -⟩
  · rw [← heq] at hstop' ⊢
    exact Band.before_write hmem hstart hlt hstop'
  -- a band further up has greater lead bytes
  · have hlead := Band.div_weight_lt hstart hstop
    apply before_cons_of_lt
    apply leadByte_lt hmem hmem' hlead (Band.div_weight_lt hstart' hstop')
    calc (bandOf diff).lead + (diff - (bandOf diff).start).toNat / (bandOf diff).weight
        < (bandOf diff).lead + (bandOf diff).leads := Nat.add_lt_add_left hlead _
      _ ≤ (bandOf diff').lead := hleads
      _ ≤ _ := Nat.le_add_right _ _
  · omega

/-! ## Characters -/

/-- The bytes of the smaller of two characters come first, if both are written under the same
anchor. -/
theorem before_writeChar {anchor : Nat} (hanchor : anchor ≤ 0x110000) {c d : Char}
    (hcd : c.toNat < d.toNat) : Before (writeChar anchor c.toNat) (writeChar anchor d.toNat) := by
  have hd := toNat_lt d
  have hbyte : ∀ {n : Nat}, n ≤ 0x20 → (UInt8.ofNat n).toNat = n := fun hn =>
    UInt8.toNat_ofNat_of_lt' (Nat.lt_of_le_of_lt hn (by decide))
  unfold writeChar
  by_cases hdcontrol : d.toNat ≤ 0x20
  · have hccontrol : c.toNat ≤ 0x20 := hcd.le.trans hdcontrol
    rw [if_pos hccontrol, if_pos hdcontrol]
    apply before_cons_of_lt
    rw [UInt8.lt_iff_toNat_lt, hbyte hccontrol, hbyte hdcontrol]
    exact hcd
  · rw [if_neg hdcontrol]
    by_cases hccontrol : c.toNat ≤ 0x20
    -- all lead bytes are above the control characters and the space
    · rw [if_pos hccontrol]
      have hlow : -0x110000 ≤ (d.toNat : Int) - anchor := by omega
      have hhigh : (d.toNat : Int) - anchor ≤ 0x110000 := by omega
      obtain ⟨hmem, hstart, hstop⟩ := bandOf_spec hlow hhigh
      obtain ⟨-, hlead, -⟩ := leadByte_spec hmem (Band.div_weight_lt hstart hstop)
      apply before_cons_of_lt
      rw [UInt8.le_iff_toNat_le] at hlead
      rw [UInt8.lt_iff_toNat_lt, hbyte hccontrol]
      exact Nat.lt_of_le_of_lt hccontrol (Nat.lt_of_not_le hlead)
    · rw [if_neg hccontrol]
      exact before_write (by omega) (by omega) (by omega)

theorem writeChar_ne_nil (anchor code : Nat) : writeChar anchor code ≠ [] := by
  unfold writeChar
  split
  · exact List.cons_ne_nil _ _
  · exact List.cons_ne_nil _ _

/-! ## Texts -/

theorem encodeFrom_nil_lt_cons (anchor : Nat) (c : Char) (cs : List Char) :
    encodeFrom anchor [] < encodeFrom anchor (c :: cs) := by
  apply lt_of_prefix_of_ne List.nil_prefix
  exact (List.append_ne_nil_of_left_ne_nil (writeChar_ne_nil _ _) _).symm

/-- Characters compare as their encodings under the same anchor do. -/
theorem compare_encodeFrom {anchor : Nat} (hanchor : anchor ≤ 0x110000) (cs ds : List Char) :
    compare (encodeFrom anchor cs) (encodeFrom anchor ds) =
      compare (cs.map Char.toNat) (ds.map Char.toNat) := by
  induction cs generalizing anchor ds with
  | nil =>
    cases ds with
    | nil => rfl
    | cons d ds =>
      rw [compare_eq_lt_of_lt (encodeFrom_nil_lt_cons anchor d ds)]
      exact (compare_eq_lt_of_lt (List.nil_lt_cons _ _)).symm
  | cons c cs ih =>
    cases ds with
    | nil =>
      rw [compare_eq_gt_of_lt (encodeFrom_nil_lt_cons anchor c cs)]
      exact (compare_eq_gt_of_lt (List.nil_lt_cons _ _)).symm
    | cons d ds =>
      rw [encodeFrom, encodeFrom, List.map_cons, List.map_cons]
      rcases Nat.lt_trichotomy c.toNat d.toNat with hlt | heq | hgt
      · rw [compare_eq_lt_of_lt ((before_writeChar hanchor hlt).lt _ _),
          compare_eq_lt_of_lt (List.cons_lt_cons_iff.2 (.inl hlt))]
      -- equal characters have the same bytes and leave the same anchor behind
      · rw [heq, compare_append_left, ih (heq ▸ anchorAfter_le hanchor c), compare_cons,
          Std.ReflOrd.compare_self, Ordering.eq_then]
      · rw [compare_eq_gt_of_lt ((before_writeChar hanchor hgt).lt _ _),
          compare_eq_gt_of_lt (List.cons_lt_cons_iff.2 (.inl hgt))]

/-- **Binary ordered compression keeps the order**: strings compare by their code points as their
encodings compare byte by byte. -/
theorem compare_encode (s t : String) :
    compare (encode s) (encode t) =
      compare (s.toList.map Char.toNat) (t.toList.map Char.toNat) :=
  compare_encodeFrom (by decide) s.toList t.toList

end Paradigm.Text.Bocu
