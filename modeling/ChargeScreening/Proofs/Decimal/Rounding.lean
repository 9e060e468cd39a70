import Mathlib

/-!
# Rounding to doubles

The numbers that round to a double form an interval around it. Arithmetic on doubles computes a
number exactly as far as the bits reach and keeps of the rest two bits only; they are enough to
tell in which interval the number lies, so that the double comes out to which it rounds.

## Main definitions

* `ulp` — the unit in the last place at an exponent
* `Carries` — a mantissa with a round bit and a sticky bit stands for a number
* `Canonical` — the significand and the exponent of a finite double other than zero
* `RoundsTo` — the numbers that round to a double, ties to the even significand

## Main results

* `roundWithAccuracy_eq` — a number that rounds to a double is rounded to it
-/

namespace ChargeScreening.Decimal

open Float.Model Float.Model.UnpackedFloat

/-- The unit in the last place at an exponent. -/
abbrev ulp (e : Int) : ℚ :=
  2 ^ e

theorem ulp_pos (e : Int) : 0 < ulp e := zpow_pos (by norm_num) e

theorem ulp_zero : ulp 0 = 1 := zpow_zero 2

theorem ulp_natCast (n : Nat) : ulp n = 2 ^ n := zpow_natCast 2 n

theorem ulp_neg (e : Int) : ulp (-e) = (ulp e)⁻¹ := zpow_neg 2 e

theorem ulp_add (d e : Int) : ulp (d + e) = ulp d * ulp e := zpow_add₀ (by norm_num) d e

theorem ulp_zpow (e n : Int) : ulp e ^ n = ulp (e * n) := (zpow_mul 2 e n).symm

theorem ulp_le_ulp_iff {d e : Int} : ulp d ≤ ulp e ↔ d ≤ e :=
  zpow_le_zpow_iff_right₀ (by norm_num)

theorem ulp_lt_ulp_iff {d e : Int} : ulp d < ulp e ↔ d < e :=
  zpow_lt_zpow_iff_right₀ (by norm_num)

/-! ### Extended mantissas -/

/-- The bits of an extended mantissa, taken at some exponent, belong to a number: what the mantissa
leaves over is less than one unit, the round bit says whether it is half a unit or more, and the
sticky bit whether it is something else than nothing or half a unit. -/
def Carries (em : ExtendedMantissa) (e : Int) (v : ℚ) : Prop :=
  ∃ rest : ℚ, v = (em.mantissa + rest) * ulp e ∧ 0 ≤ rest ∧ rest < 1
    ∧ (em.roundBit = true ↔ 1 / 2 ≤ rest) ∧ (em.stickyBit = true ↔ rest ≠ 0 ∧ rest ≠ 1 / 2)

/-- Halving an extended mantissa keeps the number, at the next exponent. -/
theorem Carries.shiftRightOne {em : ExtendedMantissa} {e : Int} {v : ℚ} (h : Carries em e v) :
    Carries em.shiftRightOne (e + 1) v := by
  obtain ⟨rest, hv, hlow, hhigh, hround, hsticky⟩ := h
  have hlost : (em.roundBit || em.stickyBit) = true ↔ rest ≠ 0 := by
    rw [Bool.or_eq_true, hround, hsticky]
    constructor
    · rintro (h | h)
      · linarith
      · exact h.1
    · intro h
      by_cases hhalf : rest = 1 / 2
      · exact .inl hhalf.ge
      · exact .inr ⟨h, hhalf⟩
  obtain ⟨q, hm | hm⟩ := Nat.even_or_odd' em.mantissa
  · have hdiv : em.mantissa / 2 = q := by omega
    have heven : em.mantissa % 2 = 0 := by omega
    refine ⟨rest / 2, ?_, by positivity, by linarith, ?_, ?_⟩
    · rw [hv, ulp_add, ExtendedMantissa.shiftRightOne, hdiv, hm, ulp, ulp, zpow_one]
      push_cast
      ring
    · rw [ExtendedMantissa.shiftRightOne, heven]
      exact iff_of_false Bool.false_ne_true (by linarith)
    · rw [ExtendedMantissa.shiftRightOne]
      refine hlost.trans ⟨fun h => ⟨by simpa using h, by linarith⟩, fun h => by simpa using h.1⟩
  · have hdiv : em.mantissa / 2 = q := by omega
    have hodd : em.mantissa % 2 = 1 := by omega
    refine ⟨(1 + rest) / 2, ?_, by positivity, by linarith, ?_, ?_⟩
    · rw [hv, ulp_add, ExtendedMantissa.shiftRightOne, hdiv, hm, ulp, ulp, zpow_one]
      push_cast
      ring
    · rw [ExtendedMantissa.shiftRightOne, hodd]
      exact iff_of_true rfl (by linarith)
    · rw [ExtendedMantissa.shiftRightOne]
      refine hlost.trans ⟨fun h => ⟨by positivity, fun hhalf => h (by linarith)⟩, fun h hzero => ?_⟩
      exact h.2 (by rw [hzero]; norm_num)

/-- Shifting an extended mantissa keeps the number. -/
theorem Carries.shiftRight {em : ExtendedMantissa} {e : Int} {v : ℚ} (h : Carries em e v)
    (n : Nat) : Carries (em >>> n) (e + n) v := by
  induction n with
  | zero =>
    rw [Nat.cast_zero, add_zero]
    exact h
  | succ n ih =>
    rw [Nat.cast_succ, ← add_assoc]
    exact ih.shiftRightOne

/-- A number that lies within half a unit of a whole number of units, and not at the end of a unit
if the whole number is odd, is rounded to it. -/
theorem Carries.roundedMantissa_eq {em : ExtendedMantissa} {e : Int} {v : ℚ} (h : Carries em e v)
    {m : Nat} (hlow : (m - 1 / 2) * ulp e ≤ v) (hhigh : v ≤ (m + 1 / 2) * ulp e)
    (hodd : m % 2 = 1 → (m - 1 / 2) * ulp e < v ∧ v < (m + 1 / 2) * ulp e) :
    em.roundedMantissa = m := by
  obtain ⟨rest, rfl, hrest, hrest', hround, hsticky⟩ := h
  simp only [mul_le_mul_iff_left₀ (ulp_pos e), mul_lt_mul_iff_left₀ (ulp_pos e)] at hlow hhigh hodd
  obtain ⟨mantissa, round, sticky⟩ := em
  simp only at hlow hhigh hodd hround hsticky ⊢
  have hle : m ≤ mantissa + 1 := by
    have hlt : (m : ℚ) < mantissa + 2 := by linarith
    exact Nat.lt_succ_iff.mp (by exact_mod_cast hlt)
  have hge : mantissa ≤ m := by
    have hlt : (mantissa : ℚ) < m + 1 := by linarith
    exact Nat.lt_succ_iff.mp (by exact_mod_cast hlt)
  obtain rfl | rfl : m = mantissa ∨ m = mantissa + 1 := by omega
  · -- The number is not closer to the next unit.
    have hhalf : rest ≤ 1 / 2 := by linarith
    cases hr : round with
    | false => cases hs : sticky <;> rfl
    | true =>
      have hrest : rest = 1 / 2 := le_antisymm hhalf (hround.mp hr)
      cases hs : sticky with
      | true => exact absurd hrest (hsticky.mp hs).2
      | false =>
        have heven : m % 2 = 0 := by
          refine Nat.mod_two_ne_one.mp fun h => ?_
          have := (hodd h).2
          linarith
        exact congrArg (m + ·) heven
  · -- The number is not closer to the unit below.
    push_cast at hlow hodd
    have hhalf : 1 / 2 ≤ rest := by linarith
    cases hr : round with
    | false => exact absurd (hround.mpr hhalf) (by simp [hr])
    | true =>
      cases hs : sticky with
      | true => rfl
      | false =>
        have hrest : rest = 1 / 2 := by
          by_contra hne
          have hzero : rest ≠ 0 := by linarith
          rw [hsticky.mpr ⟨hzero, hne⟩] at hs
          cases hs
        have hm : mantissa % 2 = 1 := by
          refine Nat.mod_two_ne_zero.mp fun h => ?_
          have := (hodd (by omega)).1
          linarith
        exact congrArg (mantissa + ·) hm

/-! ### Rounding to a double -/

/-- The significand and the exponent of a finite double other than zero. -/
structure Canonical (m : Nat) (e : Int) : Prop where
  pos : 0 < m
  small : m < 2 ^ 53
  atLeast : -1074 ≤ e
  atMost : e ≤ 971
  /-- The leading bit is set, unless the exponent is the least one. -/
  normal : 2 ^ 52 ≤ m ∨ e = -1074

/-- How far below a double the numbers reach that round to it, in units of its last place. Below a
power of two the doubles lie twice as close. -/
def gapBelow (m : Nat) (e : Int) : ℚ :=
  if m = 2 ^ 52 ∧ -1074 < e then 1 / 4 else 1 / 2

/-- The numbers that round to a double. Those halfway between two doubles round to the one with the
even significand. -/
structure RoundsTo (v : ℚ) (m : Nat) (e : Int) : Prop where
  low : (m - gapBelow m e) * ulp e ≤ v
  high : v ≤ (m + 1 / 2) * ulp e
  odd : m % 2 = 1 → (m - 1 / 2) * ulp e < v ∧ v < (m + 1 / 2) * ulp e

theorem gapBelow_le (m : Nat) (e : Int) : gapBelow m e ≤ 1 / 2 := by
  rw [gapBelow]
  split <;> norm_num

theorem RoundsTo.low_half {v : ℚ} {m : Nat} {e : Int} (h : RoundsTo v m e) :
    (m - 1 / 2) * ulp e ≤ v := by
  refine le_trans ?_ h.low
  have hgap := gapBelow_le m e
  have hpos := ulp_pos e
  gcongr

theorem targetExponent_eq (t : Int) : Format.binary64.targetExponent t = max (t - 53) (-1074) := by
  simp [Format.targetExponent, Format.mantissaBits, Format.minExponent]

/-- A number lies between two powers of two that the length of its mantissa tells. -/
theorem Carries.bounds {em : ExtendedMantissa} {e : Int} {v : ℚ} (h : Carries em e v)
    (hm : 0 < em.mantissa) :
    ulp (totalExponent em.mantissa e - 1) ≤ v ∧ v < ulp (totalExponent em.mantissa e) := by
  obtain ⟨rest, rfl, hlow, hhigh, -, -⟩ := h
  have hleast : (2 : ℚ) ^ em.mantissa.log2 ≤ em.mantissa := by
    exact_mod_cast Nat.log2_self_le hm.ne'
  have hmost : (em.mantissa : ℚ) + 1 ≤ 2 ^ (em.mantissa.log2 + 1) := by
    exact_mod_cast Nat.lt_log2_self
  have hpos := ulp_pos e
  constructor
  · have hlog : totalExponent em.mantissa e - 1 = em.mantissa.log2 + e := by
      rw [totalExponent]
      omega
    rw [hlog, ulp_add, ulp_natCast]
    gcongr
    linarith
  · have hlog : totalExponent em.mantissa e = (em.mantissa.log2 + 1 : Nat) + e := by
      rw [totalExponent]
      push_cast
      ring
    rw [hlog, ulp_add, ulp_natCast]
    gcongr
    linarith

/-- Where the number that rounds to a double lies between two powers of two, its bits are cut off at
the exponent of the double, or one place further down if the number lies below a power of two. -/
theorem RoundsTo.targetExponent_cases {v : ℚ} {m : Nat} {e t : Int} (h : RoundsTo v m e)
    (hc : Canonical m e) (hlow : ulp (t - 1) ≤ v ∨ t ≤ -1021) (hhigh : v < ulp t) :
    max (t - 53) (-1074) = e
      ∨ max (t - 53) (-1074) = e - 1 ∧ m = 2 ^ 52 ∧ v < m * ulp e ∧ -1074 < e := by
  have hpos := ulp_pos e
  have hsmall : (m : ℚ) + 1 ≤ 2 ^ 53 := by exact_mod_cast hc.small
  have hupper : t - 53 ≤ e ∨ t ≤ -1021 := by
    refine hlow.imp_left fun hlow => ?_
    have hlt : ulp (t - 1) < ulp (53 + e) := by
      refine hlow.trans_lt (h.high.trans_lt ?_)
      rw [ulp_add]
      refine mul_lt_mul_of_pos_right ?_ hpos
      rw [show ulp 53 = 2 ^ 53 from ulp_natCast 53]
      linarith
    have := ulp_lt_ulp_iff.mp hlt
    omega
  have hleast := hc.atLeast
  rcases eq_or_ne e (-1074) with hmin | hmin
  · exact .inl (by omega)
  have hnormal : (2 : ℚ) ^ 52 ≤ m := by exact_mod_cast hc.normal.resolve_right hmin
  have htwo (n : Nat) : ulp (n + e) = 2 ^ n * ulp e := by rw [ulp_add, ulp_natCast]
  rcases le_or_gt (ulp (52 + e)) v with hv | hv
  · have := ulp_lt_ulp_iff.mp (hv.trans_lt hhigh)
    exact .inl (by omega)
  · have hv' : v < 2 ^ 52 * ulp e := by rwa [← htwo 52]
    have hm : m = 2 ^ 52 := by
      refine le_antisymm (Nat.lt_succ_iff.mp ?_) (hc.normal.resolve_right hmin)
      have hlt : (m : ℚ) - 1 / 2 < 2 ^ 52 :=
        lt_of_mul_lt_mul_right (h.low_half.trans_lt hv') hpos.le
      have hlt' : (m : ℚ) < (2 ^ 52 : Nat) + 1 := by
        push_cast
        linarith
      exact_mod_cast hlt'
    have hgap : gapBelow m e = 1 / 4 := if_pos ⟨hm, by omega⟩
    have hlower : ulp (51 + e) < ulp t := by
      refine lt_of_le_of_lt (le_trans ?_ h.low) hhigh
      rw [show ulp (51 + e) = 2 ^ 51 * ulp e from htwo 51, hgap, hm]
      gcongr
      norm_num
    have := ulp_lt_ulp_iff.mp hlower
    rcases eq_or_ne t (53 + e) with ht | ht
    · exact .inl (by omega)
    · exact .inr ⟨by omega, hm, by rw [hm]; exact_mod_cast hv', by omega⟩

theorem mantissa_ofMantissaAndAccuracy (m : Nat) (acc : Accuracy) :
    (ExtendedMantissa.ofMantissaAndAccuracy m acc).mantissa = m := by
  cases acc with
  | exact => rfl
  | inexact side => cases side <;> rfl

/-- The bits are cut off just at the target exponent. -/
theorem Carries.shiftToTargetExponent {m : Nat} {e : Int} {acc : Accuracy} {v : ℚ}
    (h : Carries (.ofMantissaAndAccuracy m acc) e v)
    (hreach : e ≤ Format.binary64.targetExponent (totalExponent m e)) :
    ∃ em, shiftToTargetExponent Format.binary64 m e acc
      = (em, Format.binary64.targetExponent (totalExponent m e))
      ∧ Carries em (Format.binary64.targetExponent (totalExponent m e)) v := by
  have hend : e + (Format.binary64.targetExponent (totalExponent m e) - e).toNat
      = Format.binary64.targetExponent (totalExponent m e) := by omega
  have hshift := h.shiftRight (Format.binary64.targetExponent (totalExponent m e) - e).toNat
  refine ⟨_, ?_, hend ▸ hshift⟩
  rw [UnpackedFloat.shiftToTargetExponent, shiftToExponent, hend]

/-- A number lies between two powers of two, or is so small that it does not matter. -/
theorem Carries.range {m : Nat} {e : Int} {acc : Accuracy} {v : ℚ}
    (h : Carries (.ofMantissaAndAccuracy m acc) e v) (hempty : 0 < m ∨ e ≤ -1074) :
    (ulp (totalExponent m e - 1) ≤ v ∨ totalExponent m e ≤ -1021)
      ∧ v < ulp (totalExponent m e) := by
  rcases Nat.eq_zero_or_pos m with rfl | hm
  · obtain ⟨rest, rfl, -, hrest, -, -⟩ := h
    have htotal : totalExponent 0 e = 1 + e := by simp [totalExponent]
    rw [htotal, mantissa_ofMantissaAndAccuracy, ulp_add, Nat.cast_zero, zero_add]
    refine ⟨.inr (by omega), mul_lt_mul_of_pos_right ?_ (ulp_pos e)⟩
    exact hrest.trans (by norm_num [ulp])
  · have hbounds := h.bounds (by rwa [mantissa_ofMantissaAndAccuracy])
    rw [mantissa_ofMantissaAndAccuracy] at hbounds
    exact ⟨.inl hbounds.1, hbounds.2⟩

/-- Nothing is cut off the significand of a double. -/
theorem shiftToTargetExponent_canonical {m : Nat} {e : Int} (hc : Canonical m e) :
    shiftToTargetExponent Format.binary64 m e .exact = (⟨m, false, false⟩, e) := by
  have hlog := (Nat.log2_lt hc.pos.ne').mpr hc.small
  have hleast := hc.atLeast
  have hnone : (Format.binary64.targetExponent (totalExponent m e) - e).toNat = 0 := by
    rw [targetExponent_eq, totalExponent]
    omega
  rw [shiftToTargetExponent, shiftToExponent, hnone, Nat.cast_zero, add_zero]
  rfl

/-- A significand that has become too long by rounding is a power of two, and is halved. -/
theorem shiftToTargetExponent_carry {e : Int} (he : -1074 < e) :
    shiftToTargetExponent Format.binary64 (2 ^ 53) (e - 1) .exact
      = (⟨2 ^ 52, false, false⟩, e) := by
  have htarget : Format.binary64.targetExponent (totalExponent (2 ^ 53) (e - 1)) = e := by
    rw [targetExponent_eq, totalExponent, Nat.log2_two_pow]
    omega
  have hone : (e - (e - 1)).toNat = 1 := by omega
  have hend : e - 1 + ((1 : Nat) : Int) = e := by omega
  rw [shiftToTargetExponent, htarget, shiftToExponent, hone, hend]
  rfl

/-- A number just below a power of two is rounded up to it from the binade below. -/
theorem Carries.roundedMantissa_carry {em : ExtendedMantissa} {e : Int} {v : ℚ}
    (h : Carries em (e - 1) v) (he : -1074 < e) (hv : RoundsTo v (2 ^ 52) e)
    (hbelow : v < (2 ^ 52 : Nat) * ulp e) : em.roundedMantissa = 2 ^ 53 := by
  have hulp : ulp e = 2 * ulp (e - 1) := by
    rw [show ulp e = ulp (1 + (e - 1)) by congr 1; omega, ulp_add]
    norm_num [ulp]
  have hpos := ulp_pos (e - 1)
  have hlow := hv.low
  rw [gapBelow, if_pos ⟨rfl, he⟩] at hlow
  push_cast at hlow hbelow
  rw [hulp] at hlow hbelow
  refine h.roundedMantissa_eq ?_ ?_ fun hodd => by omega
  · push_cast
    linarith
  · push_cast
    linarith

/-- **A number that rounds to a double is rounded to it.** The mantissa must reach down to where it
is cut off, and an empty one stands for a number below the least double. -/
theorem roundWithAccuracy_eq {s : Sign} {m₀ m : Nat} {e₀ e : Int} {acc : Accuracy} {v : ℚ}
    (h : Carries (.ofMantissaAndAccuracy m₀ acc) e₀ v)
    (hreach : e₀ ≤ Format.binary64.targetExponent (totalExponent m₀ e₀))
    (hempty : 0 < m₀ ∨ e₀ ≤ -1074) (hc : Canonical m e) (hv : RoundsTo v m e) :
    roundWithAccuracy Format.binary64 s m₀ e₀ acc = .finite s m e hc.pos := by
  obtain ⟨hlow, hhigh⟩ := h.range hempty
  obtain ⟨em, hfirst, hem⟩ := h.shiftToTargetExponent hreach
  have hcases := hv.targetExponent_cases hc hlow hhigh
  rw [← targetExponent_eq] at hcases
  generalize Format.binary64.targetExponent (totalExponent m₀ e₀) = t at hfirst hem hcases
  rw [roundWithAccuracy, hfirst]
  obtain rfl | ⟨rfl, rfl, hbelow, hleast⟩ := hcases
  · -- The number is cut off at the last place of the double.
    have hrounded := hem.roundedMantissa_eq hv.low_half hv.high hv.odd
    simp only [hrounded, shiftToTargetExponent_canonical hc]
    exact dif_neg hc.pos.ne'
  · -- The number is cut off one place further down, and carries when it is rounded.
    have hrounded := hem.roundedMantissa_carry hleast hv hbelow
    simp only [hrounded, shiftToTargetExponent_carry hleast]
    exact dif_neg hc.pos.ne'

end ChargeScreening.Decimal
