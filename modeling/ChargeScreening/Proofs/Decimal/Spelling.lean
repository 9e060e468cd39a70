import ChargeScreening.Decimal.Notation
import ChargeScreening.Decimal.Reader

/-!
# The spelling of numbers in rule text

A finite double is written with digits only, apart from a minus in front and one point inside. That
is what keeps the number one lexeme; that it reads back as the same double is a different matter. It
is stated number by number as `ReadsBack`, and takes the arithmetic of doubles to prove.

## Main definitions

* `IsPlainNumber` — a minus or none, a digit, then digits and points
* `reread`, `ReadsBack` — what the text of a double reads as, and that it is the same double
* `Faithful` — a finite double that reads back

## Main results

* `isPlainNumber_ruleText` — the rule text of a finite double is plain
-/

namespace ChargeScreening.Decimal

/-- The plain spelling of a number: a minus or none, a digit, then digits and points. -/
def IsPlainNumber (cs : List Char) : Prop :=
  ∃ d tail, (cs = d :: tail ∨ cs = '-' :: d :: tail) ∧ d.isDigit = true
    ∧ ∀ c ∈ tail, c.isDigit = true ∨ c = '.'

/-! ### Digits -/

theorem isDigit_of_mem_digits {n : Nat} {c : Char} (h : c ∈ digits n) : c.isDigit = true :=
  Nat.isDigit_of_mem_toDigits (by decide) (by decide) h

theorem digits_ne_nil (n : Nat) : digits n ≠ [] :=
  Nat.toDigits_ne_nil

theorem isDigit_of_mem_zeros {n : Nat} {c : Char} (h : c ∈ List.replicate n '0') :
    c.isDigit = true := by
  rw [List.eq_of_mem_replicate h]
  rfl

/-- A positional decimal begins with a digit and goes on with digits and points. -/
theorem exists_positional_eq (s : Shortest) :
    ∃ d tail, positional s = d :: tail ∧ d.isDigit = true
      ∧ ∀ c ∈ tail, c.isDigit = true ∨ c = '.' := by
  obtain ⟨d, ds, hds⟩ := List.exists_cons_of_ne_nil (digits_ne_nil s.coefficient)
  have hdigit : ∀ c ∈ d :: ds, c.isDigit = true := fun c hc => isDigit_of_mem_digits (hds ▸ hc)
  have hd : d.isDigit = true := hdigit d (List.mem_cons_self ..)
  have htail : ∀ c ∈ ds, c.isDigit = true := fun c hc => hdigit c (List.mem_cons_of_mem _ hc)
  simp only [positional, hds]
  split
  · refine ⟨d, ds ++ List.replicate s.exponent.toNat '0', rfl, hd, fun c hc => ?_⟩
    rcases List.mem_append.mp hc with hc | hc
    · exact .inl (htail c hc)
    · exact .inl (isDigit_of_mem_zeros hc)
  · split
    · refine ⟨'0', _, rfl, rfl, fun c hc => ?_⟩
      rcases List.mem_cons.mp hc with rfl | hc
      · exact .inr rfl
      rcases List.mem_append.mp hc with hc | hc
      · exact .inl (isDigit_of_mem_zeros hc)
      · exact .inl (hdigit c hc)
    · next hlong =>
      -- the point stands behind at least one digit
      obtain ⟨k, hk⟩ : ∃ k, (d :: ds).length - (-s.exponent).toNat = k + 1 :=
        Nat.exists_eq_succ_of_ne_zero (by omega)
      rw [hk, List.take_succ_cons, List.drop_succ_cons, List.cons_append]
      refine ⟨d, _, rfl, hd, fun c hc => ?_⟩
      rcases List.mem_append.mp hc with hc | hc
      · exact .inl (htail c (List.mem_of_mem_take hc))
      rcases List.mem_cons.mp hc with rfl | hc
      · exact .inr rfl
      · exact .inl (htail c (List.mem_of_mem_drop hc))

/-! ### Finite doubles -/

private theorem unpacked_of_isFinite {u : Float.Model.UnpackedFloat} (h : u.isFinite = true) :
    u.isNaN = false ∧ u.isInf = false := by
  cases u with
  | infinity sign => cases h
  | notANumber => cases h
  | zero sign => exact ⟨rfl, rfl⟩
  | finite sign mantissa exponent hpos => exact ⟨rfl, rfl⟩

theorem isNaN_of_isFinite {x : Float} (h : x.isFinite = true) : x.isNaN = false :=
  (unpacked_of_isFinite h).1

theorem isInf_of_isFinite {x : Float} (h : x.isFinite = true) : x.isInf = false :=
  (unpacked_of_isFinite h).2

/-- **The rule text of a finite double is plain.** -/
theorem isPlainNumber_ruleText {x : Float} (h : x.isFinite = true) :
    IsPlainNumber (ruleText x).toList := by
  rw [ruleText]
  split
  · exact ⟨'0', [], .inl rfl, rfl, by simp⟩
  · next hzero =>
    obtain ⟨d, tail, hpos, hd, htail⟩ := exists_positional_eq (shortestOf x .up)
    refine ⟨d, tail, ?_, hd, htail⟩
    simp only [plainText, isNaN_of_isFinite h, isInf_of_isFinite h, hzero, hpos, Bool.false_eq_true,
      if_false, String.toList_ofList]
    split
    · exact .inr rfl
    · exact .inl rfl

/-! ### Reading back -/

/-- What the rule text of a double reads as; the double itself where it reads as nothing. -/
def reread (x : Float) : Float :=
  (readList? (ruleText x).toList).getD x

/-- The rule text of the double reads as a number, and as the same one. -/
def ReadsBack (x : Float) : Prop :=
  readList? (ruleText x).toList = some (reread x) ∧ (reread x == x) = true

instance (x : Float) : Decidable (ReadsBack x) :=
  inferInstanceAs (Decidable (_ ∧ _))

/-- A tenth reads back, though no double is a tenth. -/
example : ReadsBack 0.1 := by
  decide +kernel

/-- A double that rule text can hold: a finite one whose text reads back. -/
structure Faithful (x : Float) : Prop where
  finite : x.isFinite = true
  readsBack : ReadsBack x

end ChargeScreening.Decimal
