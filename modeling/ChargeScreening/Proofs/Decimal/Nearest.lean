import ChargeScreening.Decimal.Reader
import ChargeScreening.Proofs.Decimal.Magnitude

/-!
# The double nearest to a decimal

A written decimal is a digit count times a power of ten. Short ones are computed as a product or a
quotient of two doubles that are exact, all others from the digits at once; either way what is
rounded is the exact value, and it is rounded once.

## Main results

* `mul_eq`, `div_eq` — products and quotients are rounded to the double that they round to
* `nearest_eq` — a decimal is read as the double that it rounds to
-/

namespace ChargeScreening.Decimal

open Float.Model Float.Model.UnpackedFloat

/-! ### Products and quotients -/

/-- A whole mantissa with nothing behind it. -/
theorem carries_exact (m : Nat) (e : Int) :
    Carries (.ofMantissaAndAccuracy m .exact) e (m * ulp e) :=
  ⟨0, by rw [add_zero]; rfl, le_rfl, zero_lt_one,
    iff_of_false Bool.false_ne_true (by norm_num), iff_of_false Bool.false_ne_true (by simp)⟩

/-- A long enough mantissa reaches down to where it is cut off. -/
theorem le_targetExponent_of_long {m : Nat} (hm : 2 ^ 52 ≤ m) (e : Int) :
    e ≤ Format.binary64.targetExponent (totalExponent m e) := by
  have hlog : 52 ≤ m.log2 := (Nat.le_log2 (by omega)).mpr hm
  rw [targetExponent_eq, totalExponent]
  omega

/-- The product of two numbers is rounded to the double that it rounds to. -/
theorem mul_eq {s₁ s₂ : Sign} {m₁ m₂ m : Nat} {e₁ e₂ e : Int} {h₁ : 0 < m₁} {h₂ : 0 < m₂}
    (hlong : 2 ^ 52 ≤ m₁ * m₂) (hc : Canonical m e)
    (hv : RoundsTo (m₁ * ulp e₁ * (m₂ * ulp e₂)) m e) :
    UnpackedFloat.mul Format.binary64 (.finite s₁ m₁ e₁ h₁) (.finite s₂ m₂ e₂ h₂)
      = .finite (s₁ * s₂) m e hc.pos := by
  have hcarries := carries_exact (m₁ * m₂) (e₁ + e₂)
  have hvalue : ((m₁ * m₂ : Nat) : ℚ) * ulp (e₁ + e₂) = m₁ * ulp e₁ * (m₂ * ulp e₂) := by
    rw [ulp_add]
    push_cast
    ring
  rw [hvalue] at hcarries
  exact roundWithAccuracy_eq hcarries (le_targetExponent_of_long hlong _) (.inl (by omega)) hc hv

/-- The bits that stand for the rest of a division. -/
theorem ofMantissaAndAccuracy_accuracyOfFraction (q : Nat) {r d : Nat} (hd : 0 < d) :
    ExtendedMantissa.ofMantissaAndAccuracy q (accuracyOfFraction r d)
      = ⟨q, decide (d ≤ 2 * r), decide (r ≠ 0 ∧ 2 * r ≠ d)⟩ := by
  rw [accuracyOfFraction]
  split
  · rw [decide_eq_false (by omega), decide_eq_false (by omega)]
    rfl
  · rcases hcompare : compare (2 * r) d
    · rw [Nat.compare_eq_lt] at hcompare
      rw [decide_eq_false (by omega), decide_eq_true (by omega)]
      rfl
    · rw [Nat.compare_eq_eq] at hcompare
      rw [decide_eq_true (by omega), decide_eq_false (by omega)]
      rfl
    · rw [Nat.compare_eq_gt] at hcompare
      rw [decide_eq_true (by omega), decide_eq_true (by omega)]
      rfl

/-- A whole quotient and the bits for the rest belong to the quotient. -/
theorem carries_fraction {n d : Nat} (hd : 0 < d) (e : Int) :
    Carries (.ofMantissaAndAccuracy (n / d) (accuracyOfFraction (n % d) d)) e (n / d * ulp e) := by
  have hd' : (0 : ℚ) < d := by exact_mod_cast hd
  have hrest : ((n % d : Nat) : ℚ) < d := by exact_mod_cast Nat.mod_lt n hd
  have hwhole : (n : ℚ) = d * (n / d : Nat) + (n % d : Nat) := by
    exact_mod_cast (Nat.div_add_mod n d).symm
  rw [ofMantissaAndAccuracy_accuracyOfFraction _ hd]
  refine ⟨(n % d : Nat) / d, ?_, by positivity, (div_lt_one hd').mpr hrest, ?_, ?_⟩
  · field_simp
    linarith
  · rw [decide_eq_true_iff, div_le_div_iff₀ two_pos hd', one_mul, mul_comm 2]
    exact_mod_cast Iff.rfl
  · rw [decide_eq_true_iff, ne_eq (_ / _), ne_eq (_ / _), div_eq_zero_iff, or_iff_left hd'.ne',
      Nat.cast_eq_zero, div_eq_div_iff hd'.ne' two_ne_zero, one_mul, mul_comm 2]
    exact_mod_cast Iff.rfl

/-- A quotient has enough bits if the dividend is shifted far enough. -/
theorem long_quotient {m₁ m₂ k : Nat} (h₁ : 0 < m₁) (h₂ : 0 < m₂)
    (hk : m₂.log2 + 53 ≤ m₁.log2 + k) : 2 ^ 52 ≤ (m₁ <<< k) / m₂ := by
  rw [Nat.le_div_iff_mul_le h₂, Nat.shiftLeft_eq]
  calc 2 ^ 52 * m₂ ≤ 2 ^ 52 * 2 ^ (m₂.log2 + 1) := Nat.mul_le_mul_left _ Nat.lt_log2_self.le
    _ = 2 ^ (52 + (m₂.log2 + 1)) := (pow_add ..).symm
    _ ≤ 2 ^ (m₁.log2 + k) := Nat.pow_le_pow_right Nat.two_pos (by omega)
    _ = 2 ^ m₁.log2 * 2 ^ k := pow_add ..
    _ ≤ m₁ * 2 ^ k := Nat.mul_le_mul_right _ (Nat.log2_self_le h₁.ne')

/-- The quotient of two numbers is rounded to the double that it rounds to. -/
theorem div_eq {s₁ s₂ : Sign} {m₁ m₂ m : Nat} {e₁ e₂ e : Int} {h₁ : 0 < m₁} {h₂ : 0 < m₂}
    (hc : Canonical m e) (hv : RoundsTo (m₁ * ulp e₁ / (m₂ * ulp e₂)) m e) :
    UnpackedFloat.div Format.binary64 (.finite s₁ m₁ e₁ h₁) (.finite s₂ m₂ e₂ h₂)
      = .finite (s₁ / s₂) m e hc.pos := by
  rw [UnpackedFloat.div, divCore]
  generalize htarget : min (e₁ - e₂) (Format.binary64.targetExponent
    (totalExponent m₁ e₁ - totalExponent m₂ e₂)) = t
  rw [targetExponent_eq, totalExponent, totalExponent] at htarget
  obtain ⟨k, hk⟩ : ∃ k : Nat, e₁ - e₂ - t = k := Int.eq_ofNat_of_zero_le (by omega)
  have hvalue : ((m₁ <<< k : Nat) : ℚ) / m₂ * ulp t = m₁ * ulp e₁ / (m₂ * ulp e₂) := by
    have he₁ : ulp e₁ = ulp k * ulp t * ulp e₂ := by
      rw [← ulp_add, ← ulp_add]
      congr 1
      omega
    have hpos := ulp_pos e₂
    rw [he₁, ulp_natCast, Nat.shiftLeft_eq]
    push_cast
    field_simp
  have hcarries := carries_fraction (n := m₁ <<< k) h₂ t
  rw [hvalue] at hcarries
  have hlong : t ≤ -1074 ∨ 2 ^ 52 ≤ (m₁ <<< k) / m₂ :=
    or_iff_not_imp_left.mpr fun ht => long_quotient h₁ h₂ (by omega)
  simp only [hk, Int.toNat_natCast]
  refine roundWithAccuracy_eq hcarries ?_ (hlong.symm.imp_left fun h => by omega) hc hv
  rcases hlong with ht | hlong
  · rw [targetExponent_eq]
    omega
  · exact le_targetExponent_of_long hlong t

/-- The product of two doubles, not rounded in between. -/
theorem float_mul_eq {x y : Float} {m₁ m₂ m : Nat} {e₁ e₂ e : Int} {h₁ : 0 < m₁} {h₂ : 0 < m₂}
    (hx : x.toModel.unpack = .finite .positive m₁ e₁ h₁)
    (hy : y.toModel.unpack = .finite .positive m₂ e₂ h₂) (hlong : 2 ^ 52 ≤ m₁)
    (hc : Canonical m e) (hv : RoundsTo (m₁ * ulp e₁ * (m₂ * ulp e₂)) m e) :
    x * y = .ofModel (.pack (.finite .positive m e hc.pos)) := by
  change Float.ofModel (.pack (.mul Format.binary64 x.toModel.unpack y.toModel.unpack)) = _
  rw [hx, hy, mul_eq (hlong.trans (Nat.le_mul_of_pos_right _ h₂)) hc hv]
  rfl

/-- The quotient of two doubles. -/
theorem float_div_eq {x y : Float} {m₁ m₂ m : Nat} {e₁ e₂ e : Int} {h₁ : 0 < m₁} {h₂ : 0 < m₂}
    (hx : x.toModel.unpack = .finite .positive m₁ e₁ h₁)
    (hy : y.toModel.unpack = .finite .positive m₂ e₂ h₂)
    (hc : Canonical m e) (hv : RoundsTo (m₁ * ulp e₁ / (m₂ * ulp e₂)) m e) :
    x / y = .ofModel (.pack (.finite .positive m e hc.pos)) := by
  change Float.ofModel (.pack (.div Format.binary64 x.toModel.unpack y.toModel.unpack)) = _
  rw [hx, hy, div_eq hc hv]
  rfl

/-! ### Whole numbers and powers of ten -/

/-- A double rounds to itself. -/
theorem roundsTo_self {m : Nat} {e : Int} : RoundsTo (m * ulp e) m e := by
  have hpos := ulp_pos e
  have hgap : 0 ≤ gapBelow m e := by
    rw [gapBelow]
    split <;> norm_num
  refine ⟨?_, ?_, fun _ => ⟨?_, ?_⟩⟩
  · gcongr
    linarith
  · gcongr
    linarith
  · gcongr
    linarith
  · gcongr
    linarith

/-- A whole number of at most 53 bits is a double. -/
theorem unpack_toFloat {c : Nat} (hpos : 0 < c) (hc : c < 2 ^ 53) :
    ∃ m e, ∃ hm : 0 < m, c.toUInt64.toFloat.toModel.unpack = .finite .positive m e hm
      ∧ 2 ^ 52 ≤ m ∧ (m : ℚ) * ulp e = c := by
  have hword : c.toUInt64.toNat = c := UInt64.toNat_ofNat_of_lt' (hc.trans (by decide))
  have hlog : c.log2 < 53 := (Nat.log2_lt hpos.ne').mpr hc
  obtain ⟨k, hk⟩ : ∃ k, c.log2 + k = 52 := ⟨52 - c.log2, by omega⟩
  have hlong : 2 ^ 52 ≤ c * 2 ^ k := by
    rw [← hk, pow_add]
    exact Nat.mul_le_mul_right _ (Nat.log2_self_le hpos.ne')
  have hsmall : c * 2 ^ k < 2 ^ 53 := by
    rw [show 53 = c.log2 + 1 + k by omega, pow_add]
    exact Nat.mul_lt_mul_of_pos_right Nat.lt_log2_self (Nat.two_pow_pos k)
  have hcanonical : Canonical (c * 2 ^ k) (-k) :=
    ⟨by omega, hsmall, by omega, by omega, .inl hlong⟩
  have hround : UnpackedFloat.ofNat Format.binary64 c
      = .finite .positive (c * 2 ^ k) (-k) hcanonical.pos := by
    have htarget : Format.binary64.targetExponent (totalExponent c 0) = -k := by
      rw [targetExponent_eq, totalExponent]
      omega
    have hcompare : compare (c : Int) 0 = .gt := compare_gt_iff_gt.mpr (by omega)
    rw [UnpackedFloat.ofNat, UnpackedFloat.ofInt, UnpackedFloat.normalize, hcompare]
    simp only [UnpackedFloat.round, Int.toNat_natCast, htarget, decreaseExponent, Nat.shiftLeft_eq]
    have hk' : (0 - (-k : Int)).toNat = k := by omega
    rw [hk', zero_sub]
    exact roundWithAccuracy_eq (carries_exact _ _) (le_targetExponent_of_long hlong _)
      (.inl hcanonical.pos) hcanonical roundsTo_self
  refine ⟨c * 2 ^ k, -k, hcanonical.pos, ?_, hlong, ?_⟩
  · change (Float.Model.pack (UnpackedFloat.ofNat Format.binary64 c.toUInt64.toNat)).unpack = _
    rw [hword, hround, unpack_pack hcanonical]
  · rw [ulp, zpow_neg, zpow_natCast]
    push_cast
    rw [mul_inv_cancel_right₀ (by positivity)]

/-- Whether a double, taken apart, is a power of ten. -/
def isPowerOfTen (k : Nat) : UnpackedFloat → Bool
  | .finite .positive m e _ => m * 2 ^ e.toNat == 10 ^ k * 2 ^ (-e).toNat
  | _ => false

theorem value_of_isPowerOfTen {k : Nat} {u : UnpackedFloat} (h : isPowerOfTen k u = true) :
    ∃ m e, ∃ hm : 0 < m, u = .finite .positive m e hm ∧ (m : ℚ) * ulp e = 10 ^ k := by
  match u, h with
  | .finite .positive m e hm, h =>
    refine ⟨m, e, hm, rfl, ?_⟩
    have hnat : m * 2 ^ e.toNat = 10 ^ k * 2 ^ (-e).toNat := beq_iff_eq.mp h
    have hrat : (m : ℚ) * 2 ^ e.toNat = 10 ^ k * 2 ^ (-e).toNat := by exact_mod_cast hnat
    have he : e = (e.toNat : Int) - (-e).toNat := by omega
    have hulp : ulp e = 2 ^ e.toNat / 2 ^ (-e).toNat := by
      rw [ulp]
      conv_lhs => rw [he]
      rw [zpow_sub₀ two_ne_zero, zpow_natCast, zpow_natCast]
    rw [hulp, ← mul_div_assoc, hrat, mul_div_cancel_right₀ _ (by positivity)]

theorem isPowerOfTen_table : ∀ k : Fin Float.exactlyRepresentablePowersOfTen.size,
    isPowerOfTen k Float.exactlyRepresentablePowersOfTen[k].toModel.unpack = true := by
  decide +kernel

/-- The powers of ten up to the twenty-second are doubles. -/
theorem unpack_powerOfTen {k : Nat} (hk : k < Float.exactlyRepresentablePowersOfTen.size) :
    ∃ m e, ∃ hm : 0 < m, Float.exactlyRepresentablePowersOfTen[k].toModel.unpack
        = .finite .positive m e hm ∧ (m : ℚ) * ulp e = 10 ^ k :=
  value_of_isPowerOfTen (isPowerOfTen_table ⟨k, hk⟩)

/-! ### Decimals -/

/-- A decimal that is multiplied or divided out is rounded to the double that it rounds to. -/
theorem unpacked_ofScientific_eq {c m : Nat} {p e : Int} (hpos : 0 < c) (hp : p ≤ 2048)
    (hp' : -(2048 + (c.log2 : Int)) ≤ p) (hc : Canonical m e) (hv : RoundsTo (c * 10 ^ p) m e) :
    UnpackedFloat.ofScientific Format.binary64 c p = .finite .positive m e hc.pos := by
  have hbits : (2 : Int) ^ Format.binary64.exponentBits = 2048 := rfl
  rw [UnpackedFloat.ofScientific, dif_neg hpos.ne', hbits, if_neg (by omega), if_neg (by omega)]
  split
  · next hsign =>
    obtain ⟨k, rfl⟩ := Int.eq_ofNat_of_zero_le hsign
    have hlong : 2 ^ 52 ≤ c <<< 53 * 10 ^ k := by
      rw [Nat.shiftLeft_eq]
      exact le_trans (by omega) (Nat.le_mul_of_pos_right _ (Nat.pow_pos (by decide)))
    refine mul_eq hlong hc ?_
    convert hv using 1
    rw [mantissaBits_binary64, Nat.shiftLeft_eq, ulp_zero, ulp_neg, ulp_natCast, zpow_natCast]
    push_cast
    ring
  · next hsign =>
    refine div_eq hc ?_
    obtain ⟨k, hk⟩ := Int.eq_ofNat_of_zero_le (a := -p) (by omega)
    obtain rfl : p = -k := by omega
    convert hv using 1
    rw [ulp_zero, neg_neg, Int.toNat_natCast, zpow_neg, zpow_natCast]
    push_cast
    field_simp

/-- A decimal is rounded to the double that it rounds to, also by way of doubles if it is short. -/
theorem ofScientific_eq {c m : Nat} {p e : Int} (hpos : 0 < c) (hp : p ≤ 2048)
    (hp' : -(2048 + (c.log2 : Int)) ≤ p) (hc : Canonical m e) (hv : RoundsTo (c * 10 ^ p) m e) :
    Float.ofScientific c (p < 0) p.natAbs = .ofModel (.pack (.finite .positive m e hc.pos)) := by
  rw [Float.ofScientific]
  split
  · next hshort =>
    obtain ⟨m₁, e₁, h₁, hm₁, hlong, hvalue₁⟩ := unpack_toFloat hpos hshort.1
    obtain ⟨m₂, e₂, h₂, hm₂, hvalue₂⟩ := unpack_powerOfTen (Nat.lt_succ_iff.mpr hshort.2)
    split
    · next hsign =>
      have hneg : p = -(p.natAbs : Int) := by
        have hlt := of_decide_eq_true hsign
        omega
      rw [hneg, zpow_neg, zpow_natCast, ← div_eq_mul_inv, ← hvalue₁, ← hvalue₂] at hv
      exact float_div_eq hm₁ hm₂ hc hv
    · next hsign =>
      have hnonneg : p = (p.natAbs : Int) := by
        have hge := of_decide_eq_false (Bool.eq_false_iff.mpr hsign)
        omega
      rw [hnonneg, zpow_natCast, ← hvalue₁, ← hvalue₂] at hv
      exact float_mul_eq hm₁ hm₂ hlong hc hv
  · have hsigned : (if decide (p < 0) = true then Int.negOfNat p.natAbs else Int.ofNat p.natAbs)
        = p := by
      simp only [decide_eq_true_iff, Int.negOfNat_eq, Int.ofNat_eq_natCast]
      split <;> omega
    change Float.ofModel (.pack (UnpackedFloat.ofScientific Format.binary64 c _)) = _
    rw [hsigned, unpacked_ofScientific_eq hpos hp hp' hc hv]

/-! ### Bounds -/

/-- A power of ten against a power of two: the cube of ten is less than `2 ^ 10`, and its tenth
power is more than `2 ^ 33`. -/
theorem ten_zpow_le_ulp {p q : Int} (hlow : 33 * p ≤ 10 * q) (hhigh : 10 * p ≤ 3 * q) :
    (10 : ℚ) ^ p ≤ ulp q := by
  rcases le_total 0 p with hp | hp
  · have hcubes : ((10 : ℚ) ^ p) ^ 3 ≤ ulp q ^ 3 := by
      calc ((10 : ℚ) ^ p) ^ 3 = (10 ^ 3) ^ p := by
            rw [← zpow_natCast, ← zpow_natCast, zpow_comm]
        _ ≤ ulp 10 ^ p := zpow_le_zpow_left₀ hp (by norm_num) (by norm_num [ulp])
        _ = ulp (10 * p) := ulp_zpow 10 p
        _ ≤ ulp (q * 3) := ulp_le_ulp_iff.mpr (by omega)
        _ = ulp q ^ 3 := by rw [← zpow_natCast, ulp_zpow]; rfl
    exact le_of_pow_le_pow_left₀ three_ne_zero (ulp_pos q).le hcubes
  · have hpowers : ulp (-q) ^ 10 ≤ ((10 : ℚ) ^ (-p)) ^ 10 := by
      calc ulp (-q) ^ 10 = ulp (-q * 10) := by rw [← zpow_natCast, ulp_zpow]; rfl
        _ ≤ ulp (33 * -p) := ulp_le_ulp_iff.mpr (by omega)
        _ = ulp 33 ^ (-p) := (ulp_zpow 33 (-p)).symm
        _ ≤ (10 ^ 10) ^ (-p) := zpow_le_zpow_left₀ (by omega) (by norm_num) (by norm_num [ulp])
        _ = ((10 : ℚ) ^ (-p)) ^ 10 := by rw [← zpow_natCast, ← zpow_natCast, zpow_comm]
    have hle : ulp (-q) ≤ (10 : ℚ) ^ (-p) :=
      le_of_pow_le_pow_left₀ (by decide) (by positivity) hpowers
    rw [ulp_neg, zpow_neg] at hle
    exact (inv_le_inv₀ (ulp_pos q) (by positivity)).mp hle

/-- The numbers that round to finite doubles other than zero are neither tiny nor huge. -/
theorem RoundsTo.bounds {v : ℚ} {m : Nat} {e : Int} (h : RoundsTo v m e) (hc : Canonical m e) :
    ulp (-1075) ≤ v ∧ v < ulp 1024 := by
  have hpos := ulp_pos e
  constructor
  · have hm : (1 : ℚ) ≤ m := by exact_mod_cast hc.pos
    calc ulp (-1075) = 1 / 2 * ulp (-1074) := by
          rw [show (-1075 : Int) = -1 + -1074 from rfl, ulp_add]
          norm_num [ulp]
      _ ≤ (m - 1 / 2) * ulp e := by
        have hleast := ulp_le_ulp_iff.mpr hc.atLeast
        have hhalf : (1 / 2 : ℚ) ≤ m - 1 / 2 := by linarith
        gcongr
      _ ≤ v := h.low_half
  · have hm : (m : ℚ) + 1 ≤ 2 ^ 53 := by exact_mod_cast hc.small
    calc v ≤ (m + 1 / 2) * ulp e := h.high
      _ < 2 ^ 53 * ulp e := by
        gcongr
        linarith
      _ ≤ 2 ^ 53 * ulp 971 := by
        have hmost := ulp_le_ulp_iff.mpr hc.atMost
        gcongr
      _ = ulp 1024 := by rw [show (1024 : Int) = (53 : Nat) + 971 from rfl, ulp_add, ulp_natCast]

/-- A number lies between two powers of ten that the length of its digits tells. -/
theorem digits_bounds {c : Nat} (hpos : 0 < c) (p : Int) :
    (10 : ℚ) ^ ((Nat.toDigits 10 c).length + p - 1) ≤ c * 10 ^ p
      ∧ (c * 10 ^ p : ℚ) < 10 ^ ((Nat.toDigits 10 c).length + p) := by
  obtain ⟨k, hk⟩ : ∃ k, (Nat.toDigits 10 c).length = k + 1 :=
    Nat.exists_eq_succ_of_ne_zero Nat.length_toDigits_pos.ne'
  have hlow : 10 ^ k ≤ c := by
    rcases Nat.eq_zero_or_pos k with rfl | hkpos
    · exact hpos
    · by_contra hlt
      have := (Nat.length_toDigits_le_iff (by decide) hkpos).mpr (not_le.mp hlt)
      omega
  have hhigh : c < 10 ^ (k + 1) := (Nat.length_toDigits_le_iff (by decide) k.succ_pos).mp hk.le
  rw [hk]
  have hten : (0 : ℚ) < 10 ^ p := by positivity
  constructor
  · have hexp : ((k + 1 : Nat) : Int) + p - 1 = k + p := by
      push_cast
      ring
    rw [hexp, zpow_add₀ (by norm_num), zpow_natCast]
    gcongr
    exact_mod_cast hlow
  · rw [zpow_add₀ (by norm_num), zpow_natCast]
    gcongr
    exact_mod_cast hhigh

/-- **A decimal is read as the double that it rounds to.** -/
theorem nearest_eq {c m : Nat} {p e : Int} (hpos : 0 < c) (hc : Canonical m e)
    (hv : RoundsTo (c * 10 ^ p) m e) :
    nearest c p = .ofModel (.pack (.finite .positive m e hc.pos)) := by
  obtain ⟨hleast, hmost⟩ := hv.bounds hc
  obtain ⟨hlow, hhigh⟩ := digits_bounds hpos p
  have hlength : 0 < (Nat.toDigits 10 c).length := Nat.length_toDigits_pos
  have hlength' : (Nat.toDigits 10 c).length ≤ c.log2 + 1 := by
    refine (Nat.length_toDigits_le_iff (by decide) (Nat.succ_pos _)).mpr ?_
    exact Nat.lt_log2_self.trans_le (Nat.pow_le_pow_left (by decide) _)
  have hten {a b : Int} : (10 : ℚ) ^ a < 10 ^ b ↔ a < b := zpow_lt_zpow_iff_right₀ (by norm_num)
  have htop : (Nat.toDigits 10 c).length + p - 1 < 400 := by
    refine hten.mp (hlow.trans_lt (hmost.trans_le ?_))
    have hle : (10 : ℚ) ^ (-400 : Int) ≤ ulp (-1024) := ten_zpow_le_ulp (by decide) (by decide)
    rw [ulp_neg, zpow_neg] at hle
    exact (inv_le_inv₀ (by positivity) (ulp_pos 1024)).mp hle
  have hbottom : -400 < (Nat.toDigits 10 c).length + p := by
    have hle : (10 : ℚ) ^ (-400 : Int) ≤ ulp (-1075) := ten_zpow_le_ulp (by decide) (by decide)
    exact hten.mp (hle.trans_lt (hleast.trans_lt hhigh))
  rw [nearest, if_neg hpos.ne']
  simp only
  rw [if_neg (by omega), if_neg (by omega)]
  exact ofScientific_eq hpos (by omega) (by omega) hc hv

end ChargeScreening.Decimal
