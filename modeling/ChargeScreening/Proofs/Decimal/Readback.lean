import ChargeScreening.Proofs.Decimal.Shortest
import ChargeScreening.Proofs.Decimal.Spelling

/-!
# Rule text and doubles

Every finite double is the number that its rule text reads as. The text is a sign and the shortest
digits of the double, a positional decimal is read as its value, and the value rounds to the double.

## Main results

* `readUnsigned?_positional` — a positional decimal is read as its value
* `readList?_ruleText` — the text of a double other than zero reads as this very double
* `readsBack_of_isFinite` — the text of a finite double reads as the double
-/

namespace ChargeScreening.Decimal

open Float.Model Float.Model.UnpackedFloat

/-! ### Reading digits -/

theorem digitsValue_eq (cs : List Char) : digitsValue cs = Nat.ofDigitChars 10 cs 0 :=
  (Nat.ofDigitChars_eq_foldl).symm

theorem digitsValue_digits (n : Nat) : digitsValue (digits n) = n := by
  rw [digitsValue_eq]
  exact Nat.ofDigitChars_ten_toDigits

/-- Digits are cut off up to what follows them. -/
theorem spanDigits_append {ds rest : List Char} (hds : ∀ c ∈ ds, c.isDigit = true)
    (hrest : ∀ c, rest.head? = some c → c.isDigit = false) :
    spanDigits (ds ++ rest) = (ds, rest) := by
  rw [spanDigits, List.takeWhile_append_of_pos hds, List.dropWhile_append_of_pos hds]
  cases rest with
  | nil => simp
  | cons c cs => simp [hrest c rfl]

theorem spanDigits_self {ds : List Char} (hds : ∀ c ∈ ds, c.isDigit = true) :
    spanDigits ds = (ds, []) := by
  have hnone : ∀ c, ([] : List Char).head? = some c → c.isDigit = false := fun c hc => nomatch hc
  simpa only [List.append_nil] using spanDigits_append hds hnone

theorem readUnsigned?_whole {ws : List Char} (hws : ∀ c ∈ ws, c.isDigit = true) (hne : ws ≠ []) :
    readUnsigned? ws = some (nearest (digitsValue ws) 0) := by
  simp [readUnsigned?, spanDigits_self hws, spanFraction, readExponent?, hne]

theorem readUnsigned?_point {ws fs : List Char} (hws : ∀ c ∈ ws, c.isDigit = true) (hne : ws ≠ [])
    (hfs : ∀ c ∈ fs, c.isDigit = true) :
    readUnsigned? (ws ++ '.' :: fs) = some (nearest (digitsValue (ws ++ fs)) (-fs.length)) := by
  have hspan : spanDigits (ws ++ '.' :: fs) = (ws, '.' :: fs) :=
    spanDigits_append hws (by rintro c ⟨⟩; rfl)
  simp [readUnsigned?, hspan, spanFraction, spanDigits_self hfs, readExponent?, hne]

theorem digitsValue_append (cs ds : List Char) :
    digitsValue (cs ++ ds) = Nat.ofDigitChars 10 ds (digitsValue cs) := by
  rw [digitsValue_eq, digitsValue_eq, Nat.ofDigitChars_append]

theorem digitsValue_append_zeros (cs : List Char) (k : Nat) :
    digitsValue (cs ++ List.replicate k '0') = digitsValue cs * 10 ^ k := by
  rw [digitsValue_append, Nat.ofDigitChars_replicate_zero, mul_comm]

theorem digitsValue_zeros_append (k : Nat) (ds : List Char) :
    digitsValue (List.replicate k '0' ++ ds) = digitsValue ds := by
  have hzeros : digitsValue (List.replicate k '0') = 0 := by
    simpa [digitsValue] using digitsValue_append_zeros [] k
  rw [digitsValue_append, hzeros, digitsValue_eq]

/-- Zeros behind the digits. -/
theorem readUnsigned?_digits_zeros (c k : Nat) :
    readUnsigned? (digits c ++ List.replicate k '0') = some (nearest (c * 10 ^ k) 0) := by
  have hdigits : ∀ d ∈ digits c ++ List.replicate k '0', d.isDigit = true := fun d hd =>
    (List.mem_append.mp hd).elim isDigit_of_mem_digits isDigit_of_mem_zeros
  have hne : digits c ++ List.replicate k '0' ≠ [] :=
    List.append_ne_nil_of_left_ne_nil (digits_ne_nil c) _
  rw [readUnsigned?_whole hdigits hne, digitsValue_append_zeros, digitsValue_digits]

/-- A point in front of the digits, with zeros between the two. -/
theorem readUnsigned?_zero_point {c k : Nat} (hshort : (digits c).length ≤ k) :
    readUnsigned? ('0' :: '.' :: (List.replicate (k - (digits c).length) '0' ++ digits c))
      = some (nearest c (-k)) := by
  have hzero : ∀ d ∈ ['0'], d.isDigit = true := fun d hd => by
    rw [List.mem_singleton.mp hd]
    rfl
  have hfraction : ∀ d ∈ List.replicate (k - (digits c).length) '0' ++ digits c,
      d.isDigit = true :=
    fun d hd => (List.mem_append.mp hd).elim isDigit_of_mem_zeros isDigit_of_mem_digits
  have hlength : (List.replicate (k - (digits c).length) '0' ++ digits c).length = k := by
    rw [List.length_append, List.length_replicate, Nat.sub_add_cancel hshort]
  have hvalue := digitsValue_zeros_append (k - (digits c).length + 1) (digits c)
  rw [List.replicate_succ, digitsValue_digits] at hvalue
  have hread := readUnsigned?_point hzero (List.cons_ne_nil _ _) hfraction
  rw [hlength] at hread
  exact hread.trans (congrArg (fun n => some (nearest n (-k))) hvalue)

/-- A point between the digits. -/
theorem readUnsigned?_digits_point {c k : Nat} (hlong : k < (digits c).length) :
    readUnsigned? ((digits c).take ((digits c).length - k)
      ++ '.' :: (digits c).drop ((digits c).length - k)) = some (nearest c (-k)) := by
  have hwhole : (digits c).take ((digits c).length - k) ≠ [] := by
    rw [ne_eq, List.take_eq_nil_iff, not_or]
    exact ⟨by omega, digits_ne_nil c⟩
  have hlength : ((digits c).drop ((digits c).length - k)).length = k := by
    rw [List.length_drop]
    omega
  have hfraction : ∀ d ∈ (digits c).drop ((digits c).length - k), d.isDigit = true :=
    fun d hd => isDigit_of_mem_digits (List.mem_of_mem_drop hd)
  have hread := readUnsigned?_point
    (fun d hd => isDigit_of_mem_digits (List.mem_of_mem_take hd)) hwhole hfraction
  rwa [hlength, List.take_append_drop, digitsValue_digits] at hread

/-- **A positional decimal is read as its value.** -/
theorem readUnsigned?_positional (s : Shortest) :
    ∃ c p, readUnsigned? (positional s) = some (nearest c p)
      ∧ (c * 10 ^ p : ℚ) = s.coefficient * 10 ^ s.exponent := by
  obtain ⟨c, p⟩ := s
  simp only [positional]
  split
  · next hsign =>
    obtain ⟨k, rfl⟩ := Int.eq_ofNat_of_zero_le hsign
    refine ⟨_, _, readUnsigned?_digits_zeros c k, ?_⟩
    rw [zpow_zero, zpow_natCast]
    push_cast
    ring
  · next hsign =>
    obtain ⟨k, rfl⟩ : ∃ k : Nat, p = -k := ⟨(-p).toNat, by omega⟩
    rw [neg_neg, Int.toNat_natCast]
    split
    · next hshort => exact ⟨_, _, readUnsigned?_zero_point hshort, rfl⟩
    · next hlong => exact ⟨_, _, readUnsigned?_digits_point (not_le.mp hlong), rfl⟩

/-! ### Signs and words -/

theorem toLower_of_isDigit {c : Char} (h : c.isDigit = true) : c.toLower = c := by
  rw [Char.isDigit, Bool.and_eq_true, decide_eq_true_iff, decide_eq_true_iff] at h
  exact dif_neg fun hupper => absurd (UInt32.le_trans hupper.1 h.2) (by decide)

/-- What begins with a digit is no word. -/
theorem readMagnitude?_of_isDigit {d : Char} {tail : List Char} (h : d.isDigit = true) :
    readMagnitude? (d :: tail) = readUnsigned? (d :: tail) := by
  have hword (c : Char) (cs : List Char) (hc : c.isDigit = false) :
      String.ofList ((d :: tail).map Char.toLower) ≠ String.ofList (c :: cs) := by
    intro heq
    have hlist := String.ofList_injective heq
    rw [List.map_cons, toLower_of_isDigit h] at hlist
    rw [(List.cons.inj hlist).1, hc] at h
    cases h
  have hinf : String.ofList ((d :: tail).map Char.toLower) ≠ "inf" := hword 'i' ['n', 'f'] rfl
  have hinfinity : String.ofList ((d :: tail).map Char.toLower) ≠ "infinity" :=
    hword 'i' ['n', 'f', 'i', 'n', 'i', 't', 'y'] rfl
  have hnan : String.ofList ((d :: tail).map Char.toLower) ≠ "nan" := hword 'n' ['a', 'n'] rfl
  rw [readMagnitude?, if_neg, if_neg hnan]
  rw [Bool.or_eq_true, decide_eq_true_iff, decide_eq_true_iff]
  exact not_or.mpr ⟨hinf, hinfinity⟩

theorem readList?_of_isDigit {d : Char} {tail : List Char} (h : d.isDigit = true) :
    readList? (d :: tail) = readUnsigned? (d :: tail) := by
  rw [readList?]
  · exact readMagnitude?_of_isDigit h
  · rintro cs ⟨⟩
    cases h
  · rintro cs ⟨⟩
    cases h

/-! ### Doubles -/

/-- The shortest digits of a positive double are read as the double. -/
theorem readUnsigned?_shortest {m : Nat} {e : Int} (hc : Canonical m e) (tie : Tie) :
    readUnsigned? (positional ((binaryOf m e).shortest tie))
      = some (.ofModel (.pack (.finite .positive m e hc.pos))) := by
  obtain ⟨c, p, hread, hvalue⟩ := readUnsigned?_positional ((binaryOf m e).shortest tie)
  have hrounds := roundsTo_shortest hc tie
  rw [← hvalue] at hrounds
  have hpos : 0 < c := by
    refine Nat.pos_of_ne_zero fun hzero => ?_
    have hleast := (hrounds.bounds hc).1
    rw [hzero, Nat.cast_zero, zero_mul] at hleast
    exact (ulp_pos _).not_ge hleast
  rw [hread, nearest_eq hpos hc hrounds]

/-- The text of a double other than zero is a sign and its shortest digits. -/
theorem ruleText_eq {x : Float} (h : x.isFinite = true) (hzero : isZero x = false) :
    (ruleText x).toList
      = (if isNegative x = true then ['-'] else []) ++ positional (shortestOf x .up) := by
  simp only [ruleText, plainText, isNaN_of_isFinite h, isInf_of_isFinite h, hzero,
    Bool.false_eq_true, if_false, String.toList_ofList]

/-- The text of a double other than zero reads as this very double. -/
theorem readList?_ruleText {x : Float} (h : x.isFinite = true) (hzero : isZero x = false) :
    readList? (ruleText x).toList = some x := by
  obtain ⟨s, m, e, hparts⟩ := exists_hasParts h hzero
  have hc := hparts.canonical
  obtain ⟨d, tail, hpositional, hd, -⟩ := exists_positional_eq (shortestOf x .up)
  have hread : readUnsigned? (positional (shortestOf x .up))
      = some (.ofModel (.pack (.finite .positive m e hc.pos))) := by
    rw [shortestOf, hparts.binary]
    exact readUnsigned?_shortest hc .up
  rw [hpositional] at hread
  rw [ruleText_eq h hzero, hpositional]
  cases s with
  | positive =>
    have hsign : ¬isNegative x = true := hparts.negative.not.mpr Sign.noConfusion
    rw [if_neg hsign, List.nil_append, readList?_of_isDigit hd, hread]
    exact congrArg some (eq_of_unpack_eq ((unpack_pack hc).trans hparts.unpack.symm))
  | negative =>
    have hsign : isNegative x = true := hparts.negative.mpr rfl
    rw [if_pos hsign, List.singleton_append, readList?, readMagnitude?_of_isDigit hd, hread]
    exact congrArg some (eq_of_unpack_eq ((unpack_neg hc).trans hparts.unpack.symm))

/-- The text of either zero reads as the one without a sign. -/
theorem readList?_ruleText_of_isZero {x : Float} (h : isZero x = true) :
    readList? (ruleText x).toList = some 0.0 := by
  rw [ruleText, if_pos h]
  decide +kernel

/-- **The text of a finite double reads as the double.** For the two zeros, which rule text does not
tell apart, it reads as one of them. -/
theorem readsBack_of_isFinite {x : Float} (h : x.isFinite = true) : ReadsBack x := by
  rw [ReadsBack, reread]
  cases hzero : isZero x with
  | true =>
    have hnone : isZero 0.0 = true := by decide +kernel
    rw [readList?_ruleText_of_isZero hzero]
    exact ⟨rfl, beq_of_isZero hnone hzero⟩
  | false =>
    rw [readList?_ruleText h hzero]
    exact ⟨rfl, beq_self_of_isFinite h⟩

/-- What the text of a finite double reads as has the same text. -/
theorem ruleText_reread {x : Float} (h : x.isFinite = true) : ruleText (reread x) = ruleText x := by
  rw [reread]
  cases hzero : isZero x with
  | true =>
    have hnone : isZero 0.0 = true := by decide +kernel
    rw [readList?_ruleText_of_isZero hzero, Option.getD_some, ruleText, ruleText, if_pos hzero,
      if_pos hnone]
  | false => rw [readList?_ruleText h hzero, Option.getD_some]

/-- Rule text can hold every finite double. -/
theorem faithful_of_isFinite {x : Float} (h : x.isFinite = true) : Faithful x :=
  ⟨h, readsBack_of_isFinite h⟩

end ChargeScreening.Decimal
