import ChargeScreening.Decimal.Notation
import ChargeScreening.Proofs.Decimal.Rounding

/-!
# The bits of doubles

A double is its 64 bits, and arithmetic takes them apart into a sign, a significand and an exponent
and puts the result together again. Nothing is lost on the way, and the significand and the exponent
are the ones from which the digits of a double are worked out.

## Main definitions

* `HasParts` — the sign, the significand and the exponent of a double
* `binaryOf` — the positive double with a significand and an exponent

## Main results

* `unpack_pack` — putting a finite double together and taking it apart again
* `exists_hasParts`, `unpack_of_isZero` — the parts of a finite double
-/

namespace ChargeScreening.Decimal

open Float.Model Float.Model.UnpackedFloat

theorem exponentBias_binary64 :
    (Format.binary64.exponentBias + Format.binary64.mantissaBitsWithoutImplicit : Int) = 1075 :=
  rfl

theorem mantissaBits_binary64 : Format.binary64.mantissaBits = 53 :=
  rfl

/-! ### Putting a double together -/

theorem ofBitVec_eq_negative_iff (b : BitVec 1) : Sign.ofBitVec b = .negative ↔ b.toNat = 1 := by
  rcases BitVec.eq_zero_or_eq_one b with rfl | rfl <;> simp [Sign.ofBitVec]

/-- The leading bit in front of a fraction. -/
theorem toNat_one_append {fraction : BitVec 52} :
    (1#1 ++ fraction).toNat = 2 ^ 52 + fraction.toNat := by
  rw [BitVec.toNat_append, ← Nat.shiftLeft_add_eq_or_of_lt fraction.isLt]
  rfl

/-- The exponent field of a double: zero if the leading bit is missing. -/
def exponentField (m : Nat) (e : Int) : Nat :=
  if m < 2 ^ 52 then 0 else (e + 1075).toNat

theorem pack_eq {s : Sign} {m : Nat} {e : Int} (hc : Canonical m e) :
    UnpackedFloat.pack Format.binary64 (.finite s m e hc.pos)
      = packComponents Format.binary64 s (.ofNat 11 (exponentField m e)) (.ofNat 52 m) := by
  have hfits : ¬2 ^ Format.binary64.exponentBits ≤ (e + 1075).toNat + 1 := by
    have hmost := hc.atMost
    rw [show 2 ^ Format.binary64.exponentBits = 2048 from rfl]
    omega
  rw [UnpackedFloat.pack, add_assoc, exponentBias_binary64, if_neg hfits, exponentField]
  rcases Nat.lt_or_ge m (2 ^ 52) with hsub | hnormal
  · have hlog : m.log2 + 1 ≠ Format.binary64.mantissaBits := by
      have hlt := (Nat.log2_lt hc.pos.ne').mpr hsub
      rw [mantissaBits_binary64]
      omega
    rw [if_neg hlog, if_pos hsub]
  · have hlog : m.log2 + 1 = Format.binary64.mantissaBits := by
      rw [(Nat.log2_eq_iff hc.pos.ne').mpr ⟨hnormal, hc.small⟩]
      rfl
    rw [if_pos hlog, if_neg hnormal.not_gt]

/-- **A finite double is taken apart into what it was put together from.** -/
theorem unpack_pack {s : Sign} {m : Nat} {e : Int} (hc : Canonical m e) :
    (Float.Model.pack (.finite s m e hc.pos)).unpack = .finite s m e hc.pos := by
  have hpos := hc.pos
  have hsmall := hc.small
  have hleast := hc.atLeast
  have hmost := hc.atMost
  have hfield : exponentField m e < 2047 ∧ (exponentField m e = 0 ↔ m < 2 ^ 52) := by
    rw [exponentField]
    split <;> omega
  have hexponent : (BitVec.ofNat 11 (exponentField m e)).toNat = exponentField m e := by
    rw [BitVec.toNat_ofNat, Nat.mod_eq_of_lt (by omega)]
  have hfinite : BitVec.ofNat 11 (exponentField m e) ≠ -1#11 := fun h => by
    rw [h] at hexponent
    exact hfield.1.ne' hexponent
  change UnpackedFloat.unpack Format.binary64 (UnpackedFloat.pack Format.binary64 _) = _
  rw [pack_eq hc, UnpackedFloat.unpack]
  simp only [unpackMantissa_packComponents, unpackExponent_packComponents,
    unpackSign_packComponents, Sign.ofBitVec_toBitVec]
  rw [if_neg hfinite, hexponent]
  by_cases hsub : m < 2 ^ 52
  · obtain rfl : e = -1074 := hc.normal.resolve_left (by omega)
    have hm : (BitVec.ofNat 52 m).toNat = m := by
      rw [BitVec.toNat_ofNat, Nat.mod_eq_of_lt hsub]
    have hfraction : BitVec.ofNat 52 m ≠ 0#52 := fun h => hpos.ne' (by rw [← hm, h]; rfl)
    have hzero : exponentField m (-1074) = 0 := hfield.2.mpr hsub
    rw [hzero, if_pos rfl, dif_neg hfraction]
    congr 1
  · have hm : (1#1 ++ BitVec.ofNat 52 m).toNat = m := by
      rw [toNat_one_append, BitVec.toNat_ofNat]
      omega
    have hnonzero : BitVec.ofNat 11 (exponentField m e) ≠ 0#11 := fun h => by
      rw [h] at hexponent
      exact hsub (hfield.2.mp hexponent.symm)
    have he : (exponentField m e : Int) - 1075 = e := by
      rw [exponentField, if_neg hsub]
      omega
    rw [if_neg hnonzero]
    congr 1

/-- The double of the opposite sign has the same significand and exponent. -/
theorem unpack_neg {m : Nat} {e : Int} (hc : Canonical m e) :
    (Float.neg (.ofModel (.pack (.finite .positive m e hc.pos)))).toModel.unpack
      = .finite .negative m e hc.pos := by
  change (Float.Model.pack (Float.Model.pack (.finite .positive m e hc.pos)).unpack.neg).unpack = _
  rw [unpack_pack hc]
  exact unpack_pack hc

/-! ### Taking a double apart -/

/-- The exponent field in the bits of a double. -/
def fieldBits (x : Float) : Nat :=
  x.toBits.toNat / 2 ^ 52 % 2 ^ 11

/-- The fraction in the bits of a double. -/
def fractionBits (x : Float) : Nat :=
  x.toBits.toNat % 2 ^ 52

section Bits

variable (x : Float)

theorem toNat_unpackMantissa :
    (@unpackMantissa Format.binary64 x.toBits.toBitVec).toNat = fractionBits x := by
  simp [unpackMantissa, fractionBits]

theorem toNat_unpackExponent :
    (@unpackExponent Format.binary64 x.toBits.toBitVec).toNat = fieldBits x := by
  simp [unpackExponent, fieldBits, Nat.shiftRight_eq_div_pow]

theorem toNat_unpackSign :
    (@unpackSign Format.binary64 x.toBits.toBitVec).toNat = x.toBits.toNat / 2 ^ 63 := by
  have hlt : x.toBits.toNat / 2 ^ 63 < 2 := by
    have hbits : x.toBits.toNat < 2 ^ 64 := x.toBits.toNat_lt
    omega
  simpa [unpackSign, Nat.shiftRight_eq_div_pow] using hlt

/-- The sign of a double. -/
def signOf : Sign :=
  Sign.ofBitVec (@unpackSign Format.binary64 x.toBits.toBitVec)

theorem isNegative_iff : isNegative x = true ↔ signOf x = .negative := by
  have hlt : x.toBits.toNat < 2 ^ 64 := x.toBits.toNat_lt
  rw [signOf, ofBitVec_eq_negative_iff, toNat_unpackSign, isNegative, decide_eq_true_iff,
    Nat.pow_eq]
  omega

theorem unpack_eq :
    x.toModel.unpack = UnpackedFloat.unpack Format.binary64 x.toBits.toBitVec :=
  rfl

end Bits

/-- The positive double with a significand and an exponent. -/
def binaryOf (m : Nat) (e : Int) : Binary :=
  ⟨m, e, decide (m = 2 ^ 52 ∧ -1074 < e)⟩

/-- What a double other than zero is made of. Its bits show the same significand and exponent as
arithmetic takes out of it. -/
structure HasParts (x : Float) (s : Sign) (m : Nat) (e : Int) : Prop where
  canonical : Canonical m e
  unpack : x.toModel.unpack = .finite s m e canonical.pos
  binary : Binary.ofBits x.toBits.toNat = binaryOf m e
  negative : isNegative x = true ↔ s = .negative

section Parts

variable {x : Float}

/-- The exponent field of a finite double is not all ones. -/
theorem fieldBits_of_isFinite (h : x.isFinite = true) : fieldBits x ≠ 2047 := by
  intro hfield
  have hones : @unpackExponent Format.binary64 x.toBits.toBitVec = -1#11 :=
    BitVec.eq_of_toNat_eq ((toNat_unpackExponent x).trans hfield)
  have hfinite : x.toModel.unpack.isFinite = true := h
  rw [unpack_eq, UnpackedFloat.unpack, if_pos hones] at hfinite
  split at hfinite <;> cases hfinite

theorem unpackExponent_ne_ones (h : fieldBits x ≠ 2047) :
    @unpackExponent Format.binary64 x.toBits.toBitVec ≠ -1#11 := by
  intro hones
  rw [← toNat_unpackExponent, hones] at h
  exact h rfl

theorem unpackExponent_eq_zero_iff :
    @unpackExponent Format.binary64 x.toBits.toBitVec = 0#11 ↔ fieldBits x = 0 := by
  rw [← BitVec.toNat_inj, toNat_unpackExponent]
  rfl

theorem unpackMantissa_eq_zero_iff :
    @unpackMantissa Format.binary64 x.toBits.toBitVec = 0#52 ↔ fractionBits x = 0 := by
  rw [← BitVec.toNat_inj, toNat_unpackMantissa]
  rfl

/-- A double with an empty exponent field has no leading bit. -/
theorem hasParts_of_subnormal (hfield : fieldBits x = 0) (hfraction : fractionBits x ≠ 0) :
    HasParts x (signOf x) (fractionBits x) (-1074) := by
  have hlt : fractionBits x < 2 ^ 52 := Nat.mod_lt _ (by decide)
  have hc : Canonical (fractionBits x) (-1074) :=
    ⟨by omega, by omega, by omega, by omega, .inr rfl⟩
  refine ⟨hc, ?_, ?_, isNegative_iff x⟩
  · rw [unpack_eq, UnpackedFloat.unpack, if_neg (unpackExponent_ne_ones (by omega)),
      if_pos (unpackExponent_eq_zero_iff.mpr hfield),
      dif_neg (unpackMantissa_eq_zero_iff.not.mpr hfraction)]
    congr 1
    rw [unpackExponent_eq_zero_iff.mpr hfield]
    rfl
  · refine (if_pos hfield).trans ?_
    rw [binaryOf, decide_eq_false (by omega)]
    rfl

/-- Any other exponent field puts a leading bit in front of the fraction. -/
theorem hasParts_of_normal (hfield : fieldBits x ≠ 0) (hones : fieldBits x ≠ 2047) :
    HasParts x (signOf x) (2 ^ 52 + fractionBits x) (fieldBits x - 1075) := by
  have hlt : fractionBits x < 2 ^ 52 := Nat.mod_lt _ (by decide)
  have hlt' : fieldBits x < 2 ^ 11 := Nat.mod_lt _ (by decide)
  have hc : Canonical (2 ^ 52 + fractionBits x) (fieldBits x - 1075) :=
    ⟨by omega, by omega, by omega, by omega, .inl (by omega)⟩
  refine ⟨hc, ?_, ?_, isNegative_iff x⟩
  · rw [unpack_eq, UnpackedFloat.unpack, if_neg (unpackExponent_ne_ones hones),
      if_neg (unpackExponent_eq_zero_iff.not.mpr hfield)]
    congr 1
    · rw [toNat_one_append, toNat_unpackMantissa]
    · rw [toNat_unpackExponent, exponentBias_binary64]
  · refine (if_neg hfield).trans ?_
    rw [binaryOf]
    congr 1
    rw [Bool.eq_iff_iff, Bool.and_eq_true, beq_iff_eq, decide_eq_true_iff, decide_eq_true_iff]
    change fractionBits x = 0 ∧ fieldBits x > 1 ↔ _
    omega

theorem isZero_iff : isZero x = true ↔ fieldBits x = 0 ∧ fractionBits x = 0 := by
  rw [isZero, beq_iff_eq, Nat.pow_eq, fieldBits, fractionBits]
  omega

/-- **A finite double other than zero has a sign, a significand and an exponent.** -/
theorem exists_hasParts (h : x.isFinite = true) (hzero : isZero x = false) :
    ∃ s m e, HasParts x s m e := by
  rcases eq_or_ne (fieldBits x) 0 with hfield | hfield
  · have hfraction : fractionBits x ≠ 0 := fun hfraction => by
      rw [isZero_iff.mpr ⟨hfield, hfraction⟩] at hzero
      cases hzero
    exact ⟨_, _, _, hasParts_of_subnormal hfield hfraction⟩
  · exact ⟨_, _, _, hasParts_of_normal hfield (fieldBits_of_isFinite h)⟩

/-- Both zeros are zeros once they are taken apart. -/
theorem unpack_of_isZero (h : isZero x = true) : x.toModel.unpack = .zero (signOf x) := by
  obtain ⟨hfield, hfraction⟩ := isZero_iff.mp h
  rw [unpack_eq, UnpackedFloat.unpack, if_neg (unpackExponent_ne_ones (by omega)),
    if_pos (unpackExponent_eq_zero_iff.mpr hfield),
    dif_pos (unpackMantissa_eq_zero_iff.mpr hfraction)]
  rfl

end Parts

/-! ### Equality -/

/-- Doubles with the same parts are the same. -/
theorem eq_of_unpack_eq {x y : Float} (h : x.toModel.unpack = y.toModel.unpack) : x = y := by
  have hbits := (unpack_inj_of_valid x.toModel.valid y.toModel.valid).mp h
  exact Float.toBits_inj.mp (UInt64.toBitVec_inj.mp hbits)

/-- The two zeros are equal. -/
theorem beq_of_isZero {x y : Float} (hx : isZero x = true) (hy : isZero y = true) :
    (x == y) = true := by
  change x.toModel.unpack.beq y.toModel.unpack = true
  rw [unpack_of_isZero hx, unpack_of_isZero hy]
  rfl

/-- An infinity is equal to nothing finite. -/
private theorem beq_infinity {u : UnpackedFloat} (h : u.isFinite = true) (s : Sign) :
    u.beq (.infinity s) = false ∧ (UnpackedFloat.infinity s).beq u = false := by
  cases u with
  | infinity t => cases h
  | notANumber => cases h
  | zero t => cases s <;> exact ⟨rfl, rfl⟩
  | finite t m e hpos => cases s <;> exact ⟨rfl, rfl⟩

private theorem unpacked_isFinite_of_beq {u v : UnpackedFloat} (h : u.beq v = true) :
    u.isFinite = v.isFinite := by
  have hright (hu : u.isFinite = true) : v.isFinite = true := by
    cases v with
    | infinity s =>
      rw [(beq_infinity hu s).1] at h
      cases h
    | notANumber => cases u <;> cases h
    | zero s => rfl
    | finite s m e hpos => rfl
  cases u with
  | infinity s =>
    refine (Bool.eq_false_iff.mpr fun hv => ?_).symm
    rw [(beq_infinity hv s).2] at h
    cases h
  | notANumber => cases v <;> cases h
  | zero s => exact (hright rfl).symm
  | finite s m e hpos => exact (hright rfl).symm

/-- Equal doubles are both finite or neither is. -/
theorem isFinite_of_beq {x y : Float} (h : (x == y) = true) : x.isFinite = y.isFinite :=
  unpacked_isFinite_of_beq (u := x.toModel.unpack) (v := y.toModel.unpack) h

/-- A double that is a number is equal to itself. -/
theorem beq_self_of_isFinite {x : Float} (h : x.isFinite = true) : (x == x) = true := by
  refine Float.beq_self_iff.mpr fun hnan => ?_
  have hnone : Float.nan.isFinite = false := by decide +kernel
  rw [hnan, hnone] at h
  cases h

end ChargeScreening.Decimal
