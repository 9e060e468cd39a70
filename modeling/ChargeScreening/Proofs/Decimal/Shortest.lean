import ChargeScreening.Proofs.Decimal.Nearest

/-!
# The fewest digits round to their double

The search for the digits of a double goes down the powers of ten until a multiple of one lies among
the numbers that round to the double. A power of ten below a quarter of the last place is always
small enough, and the search reaches one before its steps are used up.

## Main results

* `roundsHere_iff` — the decimals that the search lets through are those that round to the double
* `roundsTo_shortest` — the search ends with one of them
-/

namespace ChargeScreening.Decimal

/-! ### Comparing decimals with quarters of the last place -/

namespace Binary

/-- The factor that makes both the decimals at a place and the quarters of the last binary place
whole numbers. -/
def scale (b : Binary) (place : Int) : ℚ :=
  10 ^ (-place).toNat * 2 ^ (2 - b.exponent).toNat

theorem scale_pos (b : Binary) (place : Int) : 0 < b.scale place := by
  rw [scale]
  positivity

/-- A power by a whole exponent, with its denominator cleared. -/
theorem pow_toNat_eq {x : ℚ} (hx : x ≠ 0) (n : Int) : x ^ n.toNat = x ^ n * x ^ (-n).toNat := by
  rw [← zpow_natCast, ← zpow_natCast, ← zpow_add₀ hx]
  congr 1
  omega

theorem scaleDecimal_eq (b : Binary) (place : Int) (count : Nat) :
    (b.scaleDecimal place count : ℚ) = count * 10 ^ place * b.scale place := by
  rw [scaleDecimal, scale, Nat.pow_eq, Nat.pow_eq]
  push_cast
  rw [pow_toNat_eq (by norm_num) place]
  ring

theorem scaleQuarters_eq (b : Binary) (place : Int) (count : Nat) :
    (b.scaleQuarters place count : ℚ) = count * ulp (b.exponent - 2) * b.scale place := by
  rw [scaleQuarters, scale, Nat.pow_eq, Nat.pow_eq]
  push_cast
  rw [pow_toNat_eq two_ne_zero (b.exponent - 2), neg_sub, ulp]
  ring

theorem scaleDecimal_le_iff (b : Binary) (place : Int) (count quarters : Nat) :
    b.scaleDecimal place count ≤ b.scaleQuarters place quarters
      ↔ (count * 10 ^ place : ℚ) ≤ quarters * ulp (b.exponent - 2) := by
  rw [← Nat.cast_le (α := ℚ), scaleDecimal_eq, scaleQuarters_eq,
    mul_le_mul_iff_left₀ (b.scale_pos place)]

theorem scaleQuarters_le_iff (b : Binary) (place : Int) (count quarters : Nat) :
    b.scaleQuarters place quarters ≤ b.scaleDecimal place count
      ↔ (quarters * ulp (b.exponent - 2) : ℚ) ≤ count * 10 ^ place := by
  rw [← Nat.cast_le (α := ℚ), scaleDecimal_eq, scaleQuarters_eq,
    mul_le_mul_iff_left₀ (b.scale_pos place)]

end Binary

/-! ### The ends of the interval -/

theorem ulp_eq_quarters (e : Int) : ulp e = 4 * ulp (e - 2) := by
  rw [show ulp e = ulp (2 + (e - 2)) by congr 1; omega, ulp_add]
  norm_num [ulp]

/-- The lower end of the reals around a double, in quarters of its last place. -/
theorem lowerEnd_binaryOf {m : Nat} {e : Int} (hc : Canonical m e) :
    ((binaryOf m e).lowerEnd : ℚ) * ulp (e - 2) = (m - gapBelow m e) * ulp e := by
  have hpos := hc.pos
  rw [ulp_eq_quarters e]
  by_cases hnarrow : m = 2 ^ 52 ∧ -1074 < e
  · have hend : (binaryOf m e).lowerEnd = 4 * m - 1 :=
      congrArg (4 * m - ·) (if_pos (decide_eq_true hnarrow))
    rw [gapBelow, if_pos hnarrow, hend, Nat.cast_sub (by omega)]
    push_cast
    ring
  · have hend : (binaryOf m e).lowerEnd = 4 * m - 2 :=
      congrArg (4 * m - ·) (if_neg (by simpa [binaryOf] using hnarrow))
    rw [gapBelow, if_neg hnarrow, hend, Nat.cast_sub (by omega)]
    push_cast
    ring

/-- The upper end of the reals around a double, in quarters of its last place. -/
theorem upperEnd_binaryOf (m : Nat) (e : Int) :
    ((binaryOf m e).upperEnd : ℚ) * ulp (e - 2) = (m + 1 / 2) * ulp e := by
  have hend : (binaryOf m e).upperEnd = 4 * m + 2 := rfl
  rw [ulp_eq_quarters e, hend]
  push_cast
  ring

/-- **The decimals between the ends of a double are those that round to it.** -/
theorem roundsHere_iff {m : Nat} {e : Int} (hc : Canonical m e) (place : Int) (count : Nat) :
    (binaryOf m e).roundsHere place count = true ↔ RoundsTo (count * 10 ^ place) m e := by
  have hlow := (binaryOf m e).scaleQuarters_le_iff place count (binaryOf m e).lowerEnd
  have hhigh := (binaryOf m e).scaleDecimal_le_iff place count (binaryOf m e).upperEnd
  have hlow' := (binaryOf m e).scaleDecimal_le_iff place count (binaryOf m e).lowerEnd
  have hhigh' := (binaryOf m e).scaleQuarters_le_iff place count (binaryOf m e).upperEnd
  rw [show (binaryOf m e).exponent = e from rfl] at hlow hhigh hlow' hhigh'
  rw [lowerEnd_binaryOf hc] at hlow hlow'
  rw [upperEnd_binaryOf] at hhigh hhigh'
  rw [Binary.roundsHere, show (binaryOf m e).mantissa = m from rfl]
  split
  · next heven =>
    rw [Bool.and_eq_true, decide_eq_true_iff, decide_eq_true_iff, hlow, hhigh]
    exact ⟨fun h => ⟨h.1, h.2, fun hodd => by omega⟩, fun h => ⟨h.low, h.high⟩⟩
  · next hodd =>
    have hgap : gapBelow m e = 1 / 2 := if_neg (by omega)
    rw [Bool.and_eq_true, decide_eq_true_iff, decide_eq_true_iff, ← not_le, ← not_le, hlow', hhigh',
      not_le, not_le, hgap]
    exact ⟨fun h => ⟨by rw [hgap]; exact h.1.le, h.2.le, fun _ => h⟩, fun h => h.odd (by omega)⟩

/-! ### The search -/

namespace Binary

/-- A point of a grid that the search takes rounds to the number. -/
theorem roundsHere_of_gridPoint? {b : Binary} {tie : Tie} {place : Int} {count : Nat}
    (h : b.gridPoint? tie place = some count) : b.roundsHere place count = true := by
  simp only [gridPoint?] at h
  generalize b.scaleQuarters place (4 * b.mantissa) / b.scaleDecimal place 1 = below at h
  cases hbelow : b.roundsHere place below <;> cases habove : b.roundsHere place (below + 1) <;>
    simp only [hbelow, habove] at h
  · cases h
  · cases h
    exact habove
  · cases h
    exact hbelow
  · have hcount : count = below ∨ count = below + 1 := by
      cases tie <;> grind
    obtain rfl | rfl := hcount
    · exact hbelow
    · exact habove

/-- A grid whose lower neighbour of the number rounds to it has a point. -/
theorem isSome_gridPoint? {b : Binary} (tie : Tie) {place : Int} (h : b.roundsHere place
      (b.scaleQuarters place (4 * b.mantissa) / b.scaleDecimal place 1) = true) :
    (b.gridPoint? tie place).isSome = true := by
  simp only [gridPoint?, h]
  generalize b.scaleQuarters place (4 * b.mantissa) / b.scaleDecimal place 1 = below
  cases b.roundsHere place (below + 1) with
  | false => rfl
  | true => cases tie <;> grind

/-- The search ends with a decimal that rounds to the number if one of its grids has a point. -/
theorem roundsHere_shortestFrom {b : Binary} {tie : Tie} {steps k : Nat} {place : Int}
    (hk : k < steps) (h : (b.gridPoint? tie (place - k)).isSome = true) :
    b.roundsHere (b.shortestFrom tie steps place).exponent
      (b.shortestFrom tie steps place).coefficient = true := by
  induction steps generalizing k place with
  | zero => omega
  | succ steps ih =>
    rw [shortestFrom]
    cases hgrid : b.gridPoint? tie place with
    | some count => exact roundsHere_of_gridPoint? hgrid
    | none =>
      obtain ⟨j, rfl⟩ : ∃ j, k = j + 1 := by
        refine Nat.exists_eq_succ_of_ne_zero fun hk => ?_
        subst hk
        rw [Nat.cast_zero, sub_zero, hgrid] at h
        cases h
      refine ih (k := j) (by omega) ?_
      rwa [show place - 1 - (j : Int) = place - (j + 1 : Nat) by push_cast; ring]

end Binary

/-- The lower neighbour of a double on a grid. -/
theorem below_eq_floor (m : Nat) (e place : Int) :
    (binaryOf m e).scaleQuarters place (4 * m) / (binaryOf m e).scaleDecimal place 1
      = ⌊m * ulp e / 10 ^ place⌋₊ := by
  have hvalue : ((binaryOf m e).scaleQuarters place (4 * m) : ℚ)
      = m * ulp e * (binaryOf m e).scale place := by
    rw [Binary.scaleQuarters_eq, ulp_eq_quarters e, show (binaryOf m e).exponent = e from rfl]
    push_cast
    ring
  rw [← Nat.floor_div_eq_div (K := ℚ), hvalue, Binary.scaleDecimal_eq, Nat.cast_one, one_mul,
    mul_div_mul_right _ _ ((binaryOf m e).scale_pos place).ne']

/-- A grid finer than a quarter of the last place has a point just below the double. -/
theorem roundsHere_of_fine {m : Nat} {e place : Int} (hc : Canonical m e)
    (h : (10 : ℚ) ^ place ≤ ulp (e - 2)) :
    (binaryOf m e).roundsHere place ((binaryOf m e).scaleQuarters place (4 * m)
      / (binaryOf m e).scaleDecimal place 1) = true := by
  have hten : (0 : ℚ) < 10 ^ place := by positivity
  have hpos := ulp_pos (e - 2)
  have hgap : 1 / 4 ≤ gapBelow m e := by
    rw [gapBelow]
    split <;> norm_num
  rw [roundsHere_iff hc, below_eq_floor]
  have hle := Nat.floor_le (a := m * ulp e / 10 ^ place) (by positivity)
  have hlt := Nat.lt_floor_add_one (m * ulp e / 10 ^ place)
  rw [le_div_iff₀ hten] at hle
  rw [div_lt_iff₀ hten, add_mul, one_mul] at hlt
  rw [ulp_eq_quarters e] at hle hlt
  have hnear : (m - gapBelow m e) * ulp e ≤ (m - 1 / 4) * ulp e := by
    have := ulp_pos e
    gcongr
  rw [ulp_eq_quarters e] at hnear
  refine ⟨?_, ?_, fun _ => ⟨?_, ?_⟩⟩ <;> rw [ulp_eq_quarters e] <;> linarith

/-- **The shortest digits of a double round to it.** -/
theorem roundsTo_shortest {m : Nat} {e : Int} (hc : Canonical m e) (tie : Tie) :
    RoundsTo (((binaryOf m e).shortest tie).coefficient
      * 10 ^ ((binaryOf m e).shortest tie).exponent) m e := by
  have hlog : m.log2 < 53 := (Nat.log2_lt hc.pos.ne').mpr hc.small
  have hleast := hc.atLeast
  have hmost := hc.atMost
  have htop : (binaryOf m e).topPlace = ((m.log2 : Int) + e) * 30103 / 100000 + 2 := rfl
  -- the last grid of the search is finer than a quarter of the last place
  have hfine : (10 : ℚ) ^ ((binaryOf m e).topPlace - (23 : Nat)) ≤ ulp (e - 2) :=
    ten_zpow_le_ulp (by omega) (by omega)
  rw [← roundsHere_iff hc]
  exact Binary.roundsHere_shortestFrom (by decide)
    (Binary.isSome_gridPoint? tie (roundsHere_of_fine hc hfine))

end ChargeScreening.Decimal
