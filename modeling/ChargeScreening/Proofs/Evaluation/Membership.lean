import ChargeScreening.Proofs.Evaluation.Coherence
import ChargeScreening.Proofs.Expression.WellFormed

/-!
# Membership is repeated equality

Whether a value is in a list is settled item by item, on a path of its own that asks for no order.
It comes to the same as equality with one item after the other, because both bring the two sides to
a common type in the same way, and there an order is an equality just if the sides are the same.

## Main definitions

* `Value.isScalar` — whether a value is neither an array nor an object
* `Aligned.order` — the order between sides of a common type

## Main results

* `exists_align` — scalars always have a common type, the same for every operator
* `compareValue_eq_of_align` — what equality says of sides of a common type
* `memberOf_eq_ok_any` — membership in a list of scalars
* `compareValue_isIn` — membership is repeated equality
-/

namespace ChargeScreening

/-- Whether the value is neither an array nor an object. -/
def Value.isScalar : Value → Bool
  | .null | .bool _ | .number _ | .text _ => true
  | .array _ | .object _ => false

/-! ### Sides of a common type -/

namespace Aligned

/-- The order between the sides, as equality asks for it. -/
def order : Aligned → Option Ordering
  | .numbers l r => numberOrder l r
  | .texts l r => some (textOrder l r)
  | .bools l r => some (boolOrder l r)
  | .unrelated => none

/-- Sides are equal just if their order is that of equals. Next to what is no number there is no
order, and nothing is equal. -/
theorem isEqual_eq_holds (a : Aligned) : a.isEqual = Operator.eq.holds a.order := by
  cases a with
  | numbers l r =>
    rw [isEqual, order, numberOrder]
    by_cases h : l == r
    · rw [if_pos h, h]
      rfl
    · rw [if_neg h, Bool.eq_false_iff.mpr h]
      split
      · rfl
      · split <;> rfl
  | texts l r =>
    rw [isEqual, order, textOrder]
    by_cases h : l = r
    · rw [if_pos h, h, beq_self_eq_true]
      rfl
    · rw [if_neg h, beq_eq_false_iff_ne.mpr h]
      split <;> rfl
  | bools l r => cases l <;> cases r <;> rfl
  | unrelated => rfl

end Aligned

section Align

variable {left : Value} {right : Literal} {a : Aligned}

/-- Two scalars always have a common type, whatever the operator. -/
theorem exists_align (hleft : left.isScalar = true) (hright : right.isScalar = true) :
    ∃ a, ∀ op, align op left right = .ok a := by
  cases left with
  | array items => cases hleft
  | object members => cases hleft
  | null =>
    cases right with
    | list items => cases hright
    | _ => exact ⟨.unrelated, fun _ => rfl⟩
  | bool b =>
    cases right with
    | list items => cases hright
    | number y => exact ⟨.unrelated, fun _ => rfl⟩
    | bool b' => exact ⟨.bools b b', fun _ => rfl⟩
    | text s =>
      cases hread : readBool? s with
      | none => exact ⟨.unrelated, fun op => by rw [align, hread]⟩
      | some b' => exact ⟨.bools b b', fun op => by rw [align, hread]⟩
  | number x =>
    cases right with
    | list items => cases hright
    | number y => exact ⟨.numbers x y, fun _ => rfl⟩
    | bool b => exact ⟨.unrelated, fun _ => rfl⟩
    | text s =>
      cases hread : Decimal.readList? (Text.trimList s.toList) with
      | none => exact ⟨.texts (Decimal.ruleText x) s, fun op => by rw [align, hread]⟩
      | some y => exact ⟨.numbers x y, fun op => by rw [align, hread]⟩
  | text s =>
    cases right with
    | list items => cases hright
    | number y => exact ⟨.texts s (Decimal.ruleText y), fun _ => rfl⟩
    | text t => exact ⟨.texts s t, fun _ => rfl⟩
    | bool b =>
      cases hread : readBool? s with
      | none => exact ⟨.unrelated, fun op => by rw [align, hread]⟩
      | some b' => exact ⟨.bools b' b, fun op => by rw [align, hread]⟩

/-- What is neither of the two has no common type with anything. -/
theorem align_of_not_isScalar (hleft : left.isScalar = false) (op : Operator) (right : Literal) :
    align op left right = .error (mismatch op left right) := by
  cases left with
  | array items => rfl
  | object members => rfl
  | _ => cases hleft

/-- Equality is equality of the sides that are brought to a common type. -/
theorem compareValue_eq_of_align (hnull : left.isNull = false)
    (halign : align .eq left right = .ok a) : compareValue left .eq right = .ok a.isEqual := by
  have horder : orderFor .eq left right = .ok a.order := by
    rw [orderFor, halign]
    cases a <;> rfl
  rw [compareValue_eq_map hnull rfl, horder, a.isEqual_eq_holds]
  rfl

end Align

/-! ### One item after the other -/

/-- Whether a value equals a literal. -/
def Value.equals (left : Value) (right : Literal) : Bool :=
  (compareValue left .eq right).toOption == some true

section Lists

variable {left : Value} {items : List Literal}

/-- A `null` meets no comparison. -/
theorem compareValue_of_isNull (hnull : left.isNull = true) (op : Operator) (right : Literal) :
    compareValue left op right = .ok false :=
  if_pos hnull

/-- Two scalars are always compared for equality. -/
theorem compareValue_eq_equals {right : Literal} (hleft : left.isScalar = true)
    (hright : right.isScalar = true) : compareValue left .eq right = .ok (left.equals right) := by
  have hcompared : ∃ b, compareValue left .eq right = .ok b := by
    cases hnull : left.isNull with
    | true => exact ⟨false, compareValue_of_isNull hnull .eq right⟩
    | false =>
      obtain ⟨a, halign⟩ := exists_align hleft hright
      exact ⟨a.isEqual, compareValue_eq_of_align hnull (halign .eq)⟩
  obtain ⟨b, hb⟩ := hcompared
  rw [Value.equals, hb]
  cases b <;> rfl

/-- In a list of scalars a scalar is looked for without failing, and found just if it equals one of
the items: each step brings the sides to the type in which equality compares them. -/
theorem memberOf_eq_ok_any (hleft : left.isScalar = true) (hnull : left.isNull = false)
    (hitems : ∀ item ∈ items, item.isScalar = true) (op : Operator) :
    memberOf op left items = .ok (items.any left.equals) := by
  induction items with
  | nil => rfl
  | cons item rest ih =>
    obtain ⟨hitem, hrest⟩ := List.forall_mem_cons.mp hitems
    obtain ⟨a, halign⟩ := exists_align hleft hitem
    have hequals : left.equals item = a.isEqual := by
      have hboth := (compareValue_eq_equals hleft hitem).symm.trans
        (compareValue_eq_of_align hnull (halign .eq))
      exact Except.ok.inj hboth
    rw [List.any_cons, hequals]
    simp only [memberOf, halign]
    cases a.isEqual with
    | true => rfl
    | false => exact ih hrest

theorem compareValue_isIn_eq_ok_any (hleft : left.isScalar = true)
    (hitems : ∀ item ∈ items, item.isScalar = true) :
    compareValue left .isIn (.list items) = .ok (items.any left.equals) := by
  cases hnull : left.isNull with
  | false =>
    rw [compareValue, if_neg (Bool.eq_false_iff.mp hnull)]
    exact memberOf_eq_ok_any hleft hnull hitems .isIn
  | true =>
    have hnone (item : Literal) : left.equals item = false := by
      rw [Value.equals, compareValue_of_isNull hnull]
      rfl
    have hany : items.any left.equals = false := List.any_eq_false.mpr fun item _ => by
      rw [hnone]
      exact Bool.false_ne_true
    rw [compareValue_of_isNull hnull, hany]

/-- What some item meets does not depend on the order of the items or on their repetition. -/
theorem any_congr_mem {α : Type} {xs ys : List α} (h : ∀ x, x ∈ xs ↔ x ∈ ys) (p : α → Bool) :
    xs.any p = ys.any p := by
  rw [Bool.eq_iff_iff, List.any_eq_true, List.any_eq_true]
  exact exists_congr fun x => and_congr_left' (h x)

end Lists

/-- **Membership is repeated equality.** A scalar is looked for in a list of scalars without failing
and is found just if it equals one of the items. So neither their order nor their repetition
matters, and a single item is the same as equality with it. An array or an object fails on a
mismatch with the first item. -/
theorem isIn_iff_exists_eq (left : Value) :
    (left.isScalar = true → ∀ items : List Literal, (∀ item ∈ items, item.isScalar = true) →
      (∃ b, compareValue left .isIn (.list items) = .ok b)
      ∧ (compareValue left .isIn (.list items) = .ok true
        ↔ ∃ item ∈ items, compareValue left .eq item = .ok true)
      ∧ (∀ others : List Literal, (∀ item, item ∈ others ↔ item ∈ items) →
        compareValue left .isIn (.list others) = compareValue left .isIn (.list items))
      ∧ ∀ item, items = [item] →
        compareValue left .isIn (.list items) = compareValue left .eq item)
    ∧ (left.isScalar = false → ∀ (first : Literal) (rest : List Literal),
      compareValue left .isIn (.list (first :: rest)) = .error (mismatch .isIn left first)) := by
  refine ⟨fun hleft items hitems => ⟨⟨_, compareValue_isIn_eq_ok_any hleft hitems⟩, ?_, ?_, ?_⟩,
    fun hleft first rest => ?_⟩
  · rw [compareValue_isIn_eq_ok_any hleft hitems, Except.ok.injEq, List.any_eq_true]
    refine exists_congr fun item => and_congr_right fun hitem => ?_
    rw [compareValue_eq_equals hleft (hitems item hitem), Except.ok.injEq]
  · intro others hsame
    have hothers : ∀ item ∈ others, item.isScalar = true :=
      fun item hitem => hitems item ((hsame item).mp hitem)
    rw [compareValue_isIn_eq_ok_any hleft hitems, compareValue_isIn_eq_ok_any hleft hothers,
      any_congr_mem hsame]
  · rintro item rfl
    have hitem : item.isScalar = true := hitems item (List.mem_singleton_self item)
    rw [compareValue_isIn_eq_ok_any hleft hitems, compareValue_eq_equals hleft hitem,
      List.any_cons, List.any_nil, Bool.or_false]
  · have hnull : left.isNull = false := by
      cases left with
      | null => cases hleft
      | _ => rfl
    rw [compareValue, if_neg (Bool.eq_false_iff.mp hnull)]
    simp only [memberOf, align_of_not_isScalar hleft]

/-- The theorem on a number among items of all kinds, in two orders: it is found as the text that
spells it, past one that spells what is no number. As the item of an array it fails. -/
theorem isIn_iff_exists_eq_spelledNumber :
    let left : Value := .number 12
    let items : List Literal := [.text "NaN", .bool true, .number 3, .text " 12.0 "]
    left.isScalar = true ∧ (∀ item ∈ items, item.isScalar = true)
      ∧ compareValue left .isIn (.list items) = .ok true
      ∧ compareValue left .isIn (.list items.reverse) = .ok true
      ∧ (Value.array [left]).isScalar = false
      ∧ compareValue (.array [left]) .isIn (.list items)
        = .error (.typeMismatch "in" "array" "string") := by
  intro left items
  have hitems : ∀ item ∈ items, item.isScalar = true := by
    simp [items, Literal.isScalar]
  have hequal : compareValue left .eq (.text " 12.0 ") = .ok true := by decide +kernel
  obtain ⟨-, hfound, hsame, -⟩ := (isIn_iff_exists_eq left).1 rfl items hitems
  have hin : compareValue left .isIn (.list items) = .ok true :=
    hfound.mpr ⟨.text " 12.0 ", by simp [items], hequal⟩
  have hreverse := hsame items.reverse fun item => List.mem_reverse
  refine ⟨rfl, hitems, hin, hreverse.trans hin, rfl, ?_⟩
  exact (isIn_iff_exists_eq (.array [left])).2 rfl _ _

end ChargeScreening
